import Chip8.Proofs.Json.Numbers

/-!
A value that was written reads back. Taken for granted is only that a floating-point number is read
from its own text; the rest, strings and nesting above all, is proved.
-/

set_option autoImplicit false
set_option relaxedAutoImplicit false

namespace Chip8

namespace Json

/-- Values that can be told from their text: no two members of an object have one name, whole
numbers are not too long to be read, floating-point numbers are read from their own texts. -/
inductive Legible : Json → Prop
  | null : Legible .null
  | bool (b : Bool) : Legible (.bool b)
  | int {n : Int} (short : (Nat.toDigits 10 n.natAbs).length ≤ Decimal.digitLimit) :
      Legible (.int n)
  | float {x : Float} (exact : Json.read (renderFloat x) = .ok (.float x)) : Legible (.float x)
  | string (s : String) : Legible (.string s)
  | broken (text : Text.Broken) : Legible (.broken text)
  | array {items : List Json} (each : ∀ v ∈ items, Legible v) : Legible (.array items)
  | object {members : List (String × Json)} (distinct : (members.map Prod.fst).Nodup)
      (each : ∀ m ∈ members, Legible m.2) : Legible (.object members)

/-- The reader finds a value in its text at any indentation, if it may nest as deeply as the text is
long. -/
def Restored (v : Json) : Prop :=
  ∀ level depth rest, (renderAt level v).toList.length ≤ depth → Ends rest →
    Finds (valueAt depth) (renderAt level v).toList rest v

private theorem restored_of_scalar {v : Json} (scalar : ∀ level, renderAt level v = renderScalar v)
    (found : ∀ depth rest, Ends rest →
      Finds (valueAt (depth + 1)) (renderScalar v).toList rest v)
    (some : (renderScalar v).toList ≠ []) : Restored v := by
  intro level depth rest deep ends
  rw [scalar] at deep ⊢
  have long := List.length_pos_iff.mpr some
  obtain ⟨d, rfl⟩ := Nat.exists_eq_add_one.mpr (show 0 < depth by omega)
  exact found d rest ends

/-- A word that comes first in the list of words wherever it begins a text, and is not taken for
anything else. -/
structure Word (word : String) (v : Json) : Prop where
  first : ∃ c cs, word.toList = c :: cs ∧ blank c = false ∧ c ∉ ['"', '\x7b', '[', '\uFEFF']
  found : ∀ rest, words.find? (fun w => w.1.toList.isPrefixOf (word.toList ++ rest)) =
    some (word, v)

namespace Word

variable {word : String} {v : Json}

theorem finds (known : Word word v) (depth : Nat) (rest : List Char) :
    Finds (valueAt (depth + 1)) word.toList rest v := by
  intro p
  have found := known.found rest
  obtain ⟨c, cs, letters, -, other⟩ := known.first
  have scalar : c ∉ ['"', '\x7b', '['] := fun mem => other (List.mem_append_left ['\uFEFF'] mem)
  have length : word.length = word.toList.length := String.length_toList.symm
  have reading : valueAt (depth + 1) ⟨word.toList ++ rest, p⟩ =
      scalarAt ⟨word.toList ++ rest, p⟩ := by
    rw [letters]
    exact valueAt_scalar scalar depth _ p
  refine ⟨p + word.length, ?_⟩
  rw [reading]
  simp only [scalarAt, found, Cursor.skip]
  rw [length, List.drop_left]

theorem read (known : Word word v) : Json.read word = .ok v := by
  obtain ⟨c, cs, letters, solid, other⟩ := known.first
  refine read_of_finds ?_ ?_ (known.finds _ [])
  · rw [letters]
    exact solid_of_head solid cs
  · rw [letters]
    rintro ⟨⟩
    exact other (by decide)

end Word

private theorem word_null : Word "null" .null := ⟨⟨'n', _, rfl, rfl, by decide⟩, fun _ => rfl⟩

private theorem word_true :
    Word "true" (.bool true) := ⟨⟨'t', _, rfl, rfl, by decide⟩, fun _ => rfl⟩

private theorem word_false :
    Word "false" (.bool false) := ⟨⟨'f', _, rfl, rfl, by decide⟩, fun _ => rfl⟩

private theorem word_nan : Word "NaN" (.float (0.0 / 0.0)) :=
  ⟨⟨'N', _, rfl, rfl, by decide⟩, fun _ => rfl⟩

private theorem word_infinity : Word "Infinity" (.float Decimal.infinity) :=
  ⟨⟨'I', _, rfl, rfl, by decide⟩, fun _ => rfl⟩

private theorem word_minus_infinity : Word "-Infinity" (.float (-Decimal.infinity)) :=
  ⟨⟨'-', _, rfl, rfl, by decide⟩, fun _ => rfl⟩

private theorem restored_of_word {v : Json} {word : String}
    (written : ∀ level, renderAt level v = word) (known : Word word v) : Restored v := by
  intro level depth rest deep _
  rw [written] at deep ⊢
  obtain ⟨c, cs, letters, -⟩ := known.first
  have long : 0 < word.toList.length := by
    rw [letters]
    exact Nat.zero_lt_succ _
  obtain ⟨d, rfl⟩ := Nat.exists_eq_add_one.mpr (show 0 < depth by omega)
  exact known.finds d rest

private theorem restored_of_spells {v : Json} (scalar : ∀ level, renderAt level v = renderScalar v)
    (spells : Spells (renderScalar v).toList v) : Restored v := by
  refine restored_of_scalar scalar (fun depth rest ends => spells.finds_value ends depth) ?_
  obtain ⟨c, cs, shape, -⟩ := spells.cons
  rw [shape]
  exact List.cons_ne_nil c cs

private theorem restored_int {n : Int}
    (short : (Nat.toDigits 10 n.natAbs).length ≤ Decimal.digitLimit) : Restored (.int n) :=
  restored_of_spells (fun _ => rfl) (spells_int short)

private theorem restored_float {x : Float} (exact : Json.read (renderFloat x) = .ok (.float x)) :
    Restored (.float x) := by
  -- A float that is written as a word is the value of that word.
  have of_word : ∀ {word y}, Word word (.float y) → renderFloat x = word →
      Restored (.float x) := by
    intro word y known written
    rw [written, known.read] at exact
    cases exact
    exact restored_of_word (fun _ => written) known
  cases shape : Decimal.Binary64.ofFloat x with
  | nan => exact of_word word_nan (by rw [renderFloat, shape])
  | infinite negative =>
    cases negative with
    | false => exact of_word word_infinity (by rw [renderFloat, shape]; rfl)
    | true => exact of_word word_minus_infinity (by rw [renderFloat, shape]; rfl)
  | finite negative m e =>
    have written : renderFloat x = Decimal.renderFinite negative m e := by rw [renderFloat, shape]
    have plain := Decimal.inNumber_renderFinite negative m e
    rw [← written] at plain
    exact restored_of_spells (fun _ => rfl) (spells_of_read plain exact)

private theorem renderPieces_eq (ps : List Text.Piece) :
    (renderPieces ps).toList = '"' :: (ps.flatMap escapePiece ++ ['"']) := by
  rw [renderPieces, String.toList_ofList]
  rfl

private theorem restored_of_pieces {v : Json} {ps : List Text.Piece}
    (written : ∀ level, renderAt level v = renderPieces ps)
    (joined : ofPieces (ps.flatMap halves) = v) : Restored v := by
  intro level depth rest deep _ p
  rw [written] at deep ⊢
  have long : 0 < (renderPieces ps).toList.length := by simp [renderPieces_eq]
  obtain ⟨d, rfl⟩ := Nat.exists_eq_add_one.mpr (show 0 < depth by omega)
  obtain ⟨q, read⟩ := finds_string ps rest p
  have reading : valueAt (d + 1) ⟨(renderPieces ps).toList ++ rest, p⟩ =
      (stringAt ⟨(renderPieces ps).toList ++ rest, p⟩).map fun r => (ofPieces r.1, r.2) := by
    rw [renderPieces_eq]
    rfl
  refine ⟨q, ?_⟩
  rw [reading, read]
  exact congrArg (fun w => Except.ok (w, _)) joined

/-- A text that begins with a value or a name: with no white space, and with nothing that closes a
collection or marks the order of bytes. -/
def Opens (text : List Char) : Prop :=
  ∃ c cs, text = c :: cs ∧ blank c = false ∧ c ∉ [']', '\x7d', '\uFEFF']

private theorem opens_of_value {depth p : Nat} {text : List Char} {r : Json × Cursor}
    (read : valueAt depth ⟨text, p⟩ = .ok r) : Opens text := by
  cases depth with
  | zero => cases read
  | succ depth =>
    cases text with
    | nil => cases read
    | cons c cs =>
      have other : ∀ d ∈ [' ', '\t', '\n', '\r', ']', '\x7d', '\uFEFF'], c ≠ d := by
        simp only [List.forall_mem_cons]
        refine ⟨?_, ?_, ?_, ?_, ?_, ?_, ?_, nofun⟩ <;> (rintro rfl; cases read)
      have closing : c ∉ [']', '\x7d', '\uFEFF'] := fun mem =>
        other c (List.mem_append_right [' ', '\t', '\n', '\r'] mem) rfl
      refine ⟨c, cs, rfl, ?_, closing⟩
      simp [blank, other ' ' (by decide), other '\t' (by decide), other '\n' (by decide),
        other '\r' (by decide)]

theorem Opens.append {text : List Char} (opens : Opens text) (rest : List Char) :
    Opens (text ++ rest) := by
  obtain ⟨c, cs, rfl, opening⟩ := opens
  exact ⟨c, cs ++ rest, rfl, opening⟩

theorem Opens.solid {text : List Char} (opens : Opens text) : Solid text := by
  obtain ⟨c, cs, rfl, solid, -⟩ := opens
  exact solid_of_head solid cs

private theorem Restored.opens {v : Json} (restored : Restored v) (level : Nat) :
    Opens (renderAt level v).toList := by
  obtain ⟨q, read⟩ := restored level _ [] (Nat.le_refl _) ends_nil 0
  rw [List.append_nil] at read
  exact opens_of_value read

private theorem skipSpace_lineBreak (level : Nat) {cs : List Char} (solid : Solid cs) (p : Nat) :
    ∃ q, (Cursor.mk ((lineBreak level).toList ++ cs) p).skipSpace = ⟨cs, q⟩ := by
  refine ⟨_, skipSpace_append ?_ solid p⟩
  rw [lineBreak, String.toList_ofList]
  refine List.forall_mem_cons.mpr ⟨rfl, fun c mem => ?_⟩
  rw [List.eq_of_mem_replicate mem]
  rfl

private theorem ends_lineBreak (level : Nat) (cs : List Char) :
    Ends ((lineBreak level).toList ++ cs) := by
  rw [lineBreak, String.toList_ofList]
  exact Ends.of_head rfl _

private theorem renderItemsAt_eq_map (level : Nat) (items : List Json) :
    renderItemsAt level items = items.map (renderAt level) := by
  induction items with
  | nil => rfl
  | cons v items ih => rw [renderItemsAt, ih, List.map_cons]

private theorem renderMembersAt_eq_map (level : Nat) (members : List (String × Json)) :
    renderMembersAt level members =
      members.map fun m => renderString m.1 ++ ": " ++ renderAt level m.2 := by
  induction members with
  | nil => rfl
  | cons m members ih => rw [renderMembersAt, ih, List.map_cons]

def inner (level : Nat) (right : Char) (lines : List String) : List Char :=
  (("," ++ lineBreak (level + 1)).intercalate lines).toList ++ (lineBreak level).toList ++ [right]

private theorem inner_singleton (level : Nat) (right : Char) (line : String) :
    inner level right [line] = line.toList ++ ((lineBreak level).toList ++ [right]) := by
  rw [inner, String.intercalate_singleton, List.append_assoc]

private theorem inner_cons (level : Nat) (right : Char) (line next : String) (lines : List String) :
    inner level right (line :: next :: lines) =
      line.toList ++ ',' ::
        ((lineBreak (level + 1)).toList ++ inner level right (next :: lines)) := by
  rw [inner, String.intercalate_cons_cons]
  simp [inner]

private theorem inner_eq_append (level : Nat) (right : Char) (line : String) (lines : List String) :
    ∃ tail, inner level right (line :: lines) = line.toList ++ tail := by
  cases lines with
  | nil => exact ⟨_, inner_singleton level right line⟩
  | cons next lines => exact ⟨_, inner_cons level right line next lines⟩

private theorem toList_bracket_nil (level : Nat) {left right : String} {l r : Char}
    (opening : left.toList = [l]) (closing : right.toList = [r]) :
    (bracket level left right []).toList = [l, r] := by
  have empty : ([] : List String).isEmpty = true := rfl
  rw [bracket, if_pos empty, String.toList_append, opening, closing]
  rfl

private theorem toList_bracket {level : Nat} {left right : String} {l r : Char}
    (opening : left.toList = [l]) (closing : right.toList = [r]) {lines : List String}
    (some : lines ≠ []) :
    (bracket level left right lines).toList =
      l :: ((lineBreak (level + 1)).toList ++ inner level r lines) := by
  have full : lines.isEmpty = false := by simpa using some
  simp [bracket, full, inner, opening, closing]

/-- How the items of an array and the members of an object are read: the bracket that ends them,
how each is written, and what becomes of those read so far. -/
structure Loop (α β : Type) where
  right : Char
  closing : blank right = false
  line : α → String
  run : Nat → Cursor → β → Except ReadError (Json × Cursor)
  push : β → α → β
  finish : β → Json

namespace Loop

variable {α β : Type} {loop : Loop α β}

structure Element (loop : Loop α β) (a : α) : Prop where
  opens : Opens (loop.line a).toList
  read : ∀ (depth : Nat) (rest : List Char) (p : Nat) (acc : β),
    (loop.line a).toList.length ≤ depth → Ends rest → ∃ q,
      (∀ {left q'}, (Cursor.mk rest q).skipSpace = ⟨loop.right :: left, q'⟩ →
        loop.run (depth + 1) ⟨(loop.line a).toList ++ rest, p⟩ acc =
          .ok (loop.finish (loop.push acc a), ⟨left, q' + 1⟩)) ∧
      ∀ {left q'}, (Cursor.mk rest q).skipSpace = ⟨',' :: left, q'⟩ →
        loop.run (depth + 1) ⟨(loop.line a).toList ++ rest, p⟩ acc =
          loop.run depth (Cursor.mk left (q' + 1)).skipSpace (loop.push acc a)

private theorem opens_inner {a : α} (element : loop.Element a) (level : Nat) (as : List α) :
    Opens (inner level loop.right ((a :: as).map loop.line)) := by
  obtain ⟨tail, head⟩ := inner_eq_append level loop.right (loop.line a) (as.map loop.line)
  rw [List.map_cons, head]
  exact element.opens.append tail

theorem finds {a : α} {as : List α} (each : ∀ b ∈ a :: as, loop.Element b) (level depth : Nat)
    (rest : List Char) (acc : β)
    (deep : (inner level loop.right ((a :: as).map loop.line)).length ≤ depth) :
    Finds (fun c => loop.run depth c acc) (inner level loop.right ((a :: as).map loop.line)) rest
      (loop.finish ((a :: as).foldl loop.push acc)) := by
  intro p
  dsimp only
  induction as generalizing a depth acc p with
  | nil =>
    have shape := inner_singleton level loop.right (loop.line a)
    rw [List.map_singleton, shape] at deep ⊢
    simp only [List.length_append, List.length_singleton] at deep
    obtain ⟨d, rfl⟩ := Nat.exists_eq_add_one.mpr (show 0 < depth by omega)
    rw [List.append_assoc, List.append_assoc, List.singleton_append]
    obtain ⟨q, last, -⟩ := (each a List.mem_cons_self).read d
      ((lineBreak level).toList ++ loop.right :: rest) p acc (by omega) (ends_lineBreak level _)
    obtain ⟨q', closed⟩ := skipSpace_lineBreak level (solid_of_head loop.closing rest) q
    exact ⟨q' + 1, last closed⟩
  | cons b as ih =>
    obtain ⟨first, others⟩ := List.forall_mem_cons.mp each
    have shape := inner_cons level loop.right (loop.line a) (loop.line b) (as.map loop.line)
    rw [List.map_cons, List.map_cons, shape] at deep ⊢
    rw [← List.map_cons] at deep ⊢
    simp only [List.length_append, List.length_cons] at deep
    obtain ⟨d, rfl⟩ := Nat.exists_eq_add_one.mpr (show 0 < depth by omega)
    rw [List.append_assoc, List.cons_append, List.append_assoc]
    obtain ⟨q, -, more⟩ := first.read d _ p acc (by omega) (Ends.of_head (c := ',') rfl _)
    have comma := skipSpace_solid (solid_of_head (c := ',') rfl
      ((lineBreak (level + 1)).toList ++
        (inner level loop.right ((b :: as).map loop.line) ++ rest))) q
    obtain ⟨q', next⟩ := skipSpace_lineBreak (level + 1)
      ((opens_inner (others b List.mem_cons_self) level as).append rest).solid (q + 1)
    obtain ⟨q'', read⟩ := ih others d (loop.push acc a) (by omega) q'
    refine ⟨q'', ?_⟩
    rw [more comma, next, read]
    rfl

/-- What stands between brackets is read by rounds, once the reader has passed over the bracket. -/
theorem finds_bracket {a : α} {as : List α} (each : ∀ b ∈ a :: as, loop.Element b) {level : Nat}
    {left right : String} {l : Char} (opening : left.toList = [l])
    (closing : right.toList = [loop.right]) (acc : β) {depth : Nat}
    (begun : ∀ {d p q : Nat} {rest text : List Char},
      (Cursor.mk rest (p + 1)).skipSpace = ⟨text, q⟩ → Opens text →
        valueAt (d + 1) ⟨l :: rest, p⟩ = loop.run d ⟨text, q⟩ acc)
    (deep : (bracket level left right ((a :: as).map loop.line)).toList.length ≤ depth)
    (rest : List Char) :
    Finds (valueAt depth) (bracket level left right ((a :: as).map loop.line)).toList rest
      (loop.finish ((a :: as).foldl loop.push acc)) := by
  intro p
  rw [toList_bracket opening closing (by simp)] at deep ⊢
  simp only [List.length_append, List.length_cons] at deep
  obtain ⟨d, rfl⟩ := Nat.exists_eq_add_one.mpr (show 0 < depth by omega)
  have opens := (opens_inner (each a List.mem_cons_self) level as).append rest
  obtain ⟨q, skipped⟩ := skipSpace_lineBreak (level + 1) opens.solid (p + 1)
  obtain ⟨q', read⟩ := finds each level d rest acc (by omega) q
  refine ⟨q', ?_⟩
  rw [List.cons_append, List.append_assoc, begun skipped opens]
  exact read

end Loop

private theorem valueAt_items {depth p q : Nat} {rest text : List Char}
    (skipped : (Cursor.mk rest (p + 1)).skipSpace = ⟨text, q⟩) (opens : Opens text) :
    valueAt (depth + 1) ⟨'[' :: rest, p⟩ = itemsAt depth ⟨text, q⟩ [] := by
  obtain ⟨c, cs, rfl, -, other⟩ := opens
  have first : (Cursor.mk ('[' :: rest) p).skip 1 = ⟨rest, p + 1⟩ := rfl
  simp only [valueAt, first, skipped]
  split
  · rename_i shape
    cases shape
    exact absurd List.mem_cons_self other
  · rfl

private theorem valueAt_members {depth p q : Nat} {rest text : List Char}
    (skipped : (Cursor.mk rest (p + 1)).skipSpace = ⟨text, q⟩) (opens : Opens text) :
    valueAt (depth + 1) ⟨'\x7b' :: rest, p⟩ = membersAt depth ⟨text, q⟩ [] := by
  obtain ⟨c, cs, rfl, -, other⟩ := opens
  have first : (Cursor.mk ('\x7b' :: rest) p).skip 1 = ⟨rest, p + 1⟩ := rfl
  simp only [valueAt, first, skipped]
  split
  · rename_i shape
    cases shape
    exact absurd (by decide) other
  · rfl

def itemLoop (level : Nat) : Loop Json (List Json) where
  right := ']'
  closing := rfl
  line := renderAt level
  run := itemsAt
  push acc v := v :: acc
  finish acc := .array acc.reverse

private theorem element_item {v : Json} (restored : Restored v) (level : Nat) :
    (itemLoop level).Element v := by
  refine ⟨restored.opens level, fun depth rest p acc deep ends => ?_⟩
  obtain ⟨q, value⟩ := restored level depth rest deep ends p
  dsimp only [itemLoop]
  refine ⟨q, fun closed => ?_, fun comma => ?_⟩
  · rw [itemsAt, value]
    simp only [bind, Except.bind, closed]
    rfl
  · rw [itemsAt, value]
    simp only [bind, Except.bind, comma]
    rfl

private theorem foldl_itemLoop (level : Nat) (vs acc : List Json) :
    vs.foldl (itemLoop level).push acc = vs.reverse ++ acc := by
  induction vs generalizing acc with
  | nil => rfl
  | cons v vs ih =>
    rw [List.foldl_cons, ih, List.reverse_cons, List.append_assoc]
    rfl

private theorem restored_array {vs : List Json} (each : ∀ v ∈ vs, Restored v) :
    Restored (.array vs) := by
  intro level depth rest deep ends p
  have text : renderAt level (.array vs) =
      bracket level "[" "]" (vs.map (renderAt (level + 1))) := by
    rw [renderAt, renderItemsAt_eq_map]
  rw [text] at deep ⊢
  cases vs with
  | nil =>
    rw [List.map_nil, toList_bracket_nil (l := '[') (r := ']') level rfl rfl] at deep ⊢
    obtain ⟨d, rfl⟩ := Nat.exists_eq_add_one.mpr (Nat.zero_lt_of_lt deep)
    exact ⟨p + 2, rfl⟩
  | cons v vs =>
    have elements : ∀ w ∈ v :: vs, (itemLoop (level + 1)).Element w := fun w mem =>
      element_item (each w mem) (level + 1)
    have found := Loop.finds_bracket elements (l := '[') rfl rfl [] valueAt_items deep rest p
    rw [foldl_itemLoop, List.append_nil] at found
    obtain ⟨q, read⟩ := found
    refine ⟨q, read.trans ?_⟩
    dsimp only [itemLoop]
    rw [List.reverse_reverse]

private theorem insert_new {members : List (String × Json)} {name : String}
    (fresh : name ∉ members.map Prod.fst) (v : Json) :
    insert members name v = members ++ [(name, v)] := by
  induction members with
  | nil => rfl
  | cons m members ih =>
    rw [List.map_cons, List.mem_cons, not_or] at fresh
    obtain ⟨other, others⟩ := fresh
    rw [insert, if_neg (Ne.symm other), ih others]
    rfl

theorem foldl_insert {members acc : List (String × Json)}
    (distinct : ((acc ++ members).map Prod.fst).Nodup) :
    members.foldl (fun acc m => insert acc m.1 m.2) acc = acc ++ members := by
  induction members generalizing acc with
  | nil => exact (List.append_nil acc).symm
  | cons m members ih =>
    have fresh : m.1 ∉ acc.map Prod.fst := by
      rw [List.map_append, List.map_cons, List.nodup_append] at distinct
      exact fun mem => distinct.2.2 m.1 mem m.1 List.mem_cons_self rfl
    rw [List.foldl_cons, insert_new fresh, ih]
    · rw [List.append_assoc]
      rfl
    · rw [List.append_assoc]
      exact distinct

def memberLoop (level : Nat) : Loop (String × Json) (List (String × Json)) where
  right := '\x7d'
  closing := rfl
  line m := renderString m.1 ++ ": " ++ renderAt level m.2
  run := membersAt
  push acc m := insert acc m.1 m.2
  finish := .object

private theorem opens_member (m : String × Json) (level : Nat) (rest : List Char) :
    ∃ cs, ((memberLoop level).line m).toList ++ rest = '"' :: cs := by
  have quote : (renderString m.1).toList = _ := renderPieces_eq (m.1.toList.map .char)
  dsimp only [memberLoop]
  rw [String.toList_append, String.toList_append, quote]
  exact ⟨_, rfl⟩

private theorem element_member {m : String × Json} (restored : Restored m.2) (level : Nat) :
    (memberLoop level).Element m := by
  refine ⟨?_, fun depth rest p acc deep ends => ?_⟩
  · obtain ⟨cs, quote⟩ := opens_member m level []
    rw [List.append_nil] at quote
    exact ⟨'"', cs, quote, rfl, by decide⟩
  · have text : ((memberLoop level).line m).toList ++ rest =
        (renderString m.1).toList ++ ':' :: ([' '] ++ ((renderAt level m.2).toList ++ rest)) := by
      dsimp only [memberLoop]
      simp
    obtain ⟨cs, quote⟩ := opens_member m level rest
    rw [text] at quote ⊢
    have fits : (renderAt level m.2).toList.length ≤ depth := by
      dsimp only [memberLoop] at deep
      simp only [String.toList_append, List.length_append] at deep
      omega
    have found : Finds stringAt (renderString m.1).toList _ _ :=
      finds_string (m.1.toList.map .char) (':' :: ([' '] ++ ((renderAt level m.2).toList ++ rest)))
    obtain ⟨q, name⟩ := found p
    have colon := skipSpace_solid (solid_of_head (c := ':') rfl
      ([' '] ++ ((renderAt level m.2).toList ++ rest))) q
    have white : ∀ c ∈ [' '], blank c := List.forall_mem_singleton.mpr rfl
    have space := skipSpace_append white ((restored.opens level).append rest).solid (q + 1)
    obtain ⟨q', value⟩ := restored level depth rest fits ends (q + 1 + 1)
    have after : (Cursor.mk (':' :: ([' '] ++ ((renderAt level m.2).toList ++ rest))) q).skip 1 =
        ⟨[' '] ++ ((renderAt level m.2).toList ++ rest), q + 1⟩ := rfl
    rw [quote] at name ⊢
    dsimp only [memberLoop]
    refine ⟨q', fun closed => ?_, fun comma => ?_⟩
    · rw [membersAt]
      simp only [name, bind, Except.bind, colon, after, space, List.length_singleton, value, closed,
        nameOf_string]
      rfl
    · rw [membersAt]
      simp only [name, bind, Except.bind, colon, after, space, List.length_singleton, value, comma,
        nameOf_string]
      rfl

private theorem restored_object {ms : List (String × Json)} (distinct : (ms.map Prod.fst).Nodup)
    (each : ∀ m ∈ ms, Restored m.2) : Restored (.object ms) := by
  intro level depth rest deep ends p
  have text : renderAt level (.object ms) =
      bracket level "\x7b" "\x7d" (ms.map (memberLoop (level + 1)).line) := by
    rw [renderAt, renderMembersAt_eq_map]
    rfl
  rw [text] at deep ⊢
  cases ms with
  | nil =>
    rw [List.map_nil, toList_bracket_nil (l := '\x7b') (r := '\x7d') level rfl rfl] at deep ⊢
    obtain ⟨d, rfl⟩ := Nat.exists_eq_add_one.mpr (Nat.zero_lt_of_lt deep)
    exact ⟨p + 2, rfl⟩
  | cons m ms =>
    have elements : ∀ n ∈ m :: ms, (memberLoop (level + 1)).Element n := fun n mem =>
      element_member (each n mem) (level + 1)
    obtain ⟨q, read⟩ :=
      Loop.finds_bracket elements (l := '\x7b') rfl rfl [] valueAt_members deep rest p
    have all : (([] ++ m :: ms).map Prod.fst).Nodup := distinct
    have together : (m :: ms).foldl (memberLoop (level + 1)).push [] = m :: ms := foldl_insert all
    rw [together] at read
    exact ⟨q, read⟩

/-- Every legible value is found in its text. -/
theorem Legible.restored {v : Json} (legible : Legible v) : Restored v := by
  induction legible with
  | null => exact restored_of_word (fun _ => rfl) word_null
  | bool b =>
    cases b with
    | false => exact restored_of_word (fun _ => rfl) word_false
    | true => exact restored_of_word (fun _ => rfl) word_true
  | int short => exact restored_int short
  | float exact => exact restored_float exact
  | string s => exact restored_of_pieces (fun _ => rfl) (ofPieces_string s)
  | broken text => exact restored_of_pieces (fun _ => rfl) (ofPieces_broken text)
  | array each ih => exact restored_array ih
  | object distinct each ih => exact restored_object distinct ih

theorem read_renderIndented {v : Json} (legible : Legible v) :
    Json.read v.renderIndented = .ok v := by
  have opens := legible.restored.opens 0
  refine read_of_finds opens.solid ?_ (legible.restored 0 _ [] (Nat.le_succ _) ends_nil)
  obtain ⟨c, cs, shape, -, other⟩ := opens
  rw [renderIndented, shape]
  rintro ⟨⟩
  exact other (by decide)

end Json

end Chip8
