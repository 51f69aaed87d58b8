import Mathlib.Data.List.Infix
import Mathlib.Data.List.Induction
import Chip8.Proofs.HostEvents

/-!
Runs with the same steps and the same host events in different orders. The ticks and the keys that
come between steps can be put off until an instruction has to do with them, so two runs come to the
same if each such instruction has the same of them before it.
-/

set_option autoImplicit false
set_option relaxedAutoImplicit false

namespace Chip8.Machine

variable {m : Machine} {i : Instruction} {e e' : Event} {es es' : List Event}

def heard (ch : Channel) (es : List Event) : List Event := es.filter fun e => e.channel? = some ch

private theorem mem_heard {ch : Channel} (mem : e ∈ heard ch es) :
    e.channel? = some ch := by
  simpa using (List.mem_filter.mp mem).2

private theorem heard_append (ch : Channel) (es es' : List Event) :
    heard ch (es ++ es') = heard ch es ++ heard ch es' := List.filter_append _ _

private theorem heard_step (ch : Channel) (es : List Event) :
    heard ch (es ++ [.step]) = heard ch es := by
  rw [heard_append]
  exact List.append_nil _

private theorem heard_heard (ch : Channel) (es : List Event) :
    heard ch (heard ch es) = heard ch es := by
  simp [heard]

private theorem heard_heard_other (ch : Channel) (es : List Event) :
    heard ch (heard ch.other es) = [] := by
  refine List.filter_eq_nil_iff.mpr fun e mem => ?_
  rw [mem_heard mem]
  cases ch <;> decide

private theorem after_next {ch : Channel} (on : ∀ e ∈ es, e.channel? = some ch)
    (off : e'.channel? = some ch.other) : (m.next e').after es = (m.after es).next e' := by
  induction es generalizing m with
  | nil => rfl
  | cons e es ih =>
    obtain ⟨first, rest⟩ := List.forall_mem_cons.mp on
    rw [after_cons, after_cons, ← next_next first off]
    exact ih rest

/-- Host events may be taken channel by channel, in either order of the channels. -/
theorem after_hosts (ch : Channel) (hosts : ∀ e ∈ es, e ≠ .step) :
    m.after es = (m.after (heard ch es)).after (heard ch.other es) := by
  induction es generalizing m with
  | nil => rfl
  | cons e es ih =>
    obtain ⟨host, rest⟩ := List.forall_mem_cons.mp hosts
    rw [after_cons, ih rest]
    by_cases on : e.channel? = some ch
    · have off : ¬ e.channel? = some ch.other := by
        rw [on]
        cases ch <;> decide
      rw [heard, heard, heard, heard, List.filter_cons_of_pos (by simpa using on),
        List.filter_cons_of_neg (by simpa using off), after_cons]
    · have off : e.channel? = some ch.other := by
        cases e with
        | step => exact absurd rfl host
        | tick => cases ch <;> simp_all [Event.channel?, Channel.other]
        | key key down => cases ch <;> simp_all [Event.channel?, Channel.other]
      have swap := after_next (m := m) (fun e (mem : e ∈ heard ch es) => mem_heard mem) off
      rw [swap, heard, heard, heard, heard, List.filter_cons_of_neg (by simpa using on),
        List.filter_cons_of_pos (by simpa using off), after_cons]

private theorem after_eq_of_heard (hosts : ∀ e ∈ es, e ≠ .step)
    (hosts' : ∀ e ∈ es', e ≠ .step) (same : ∀ ch, heard ch es = heard ch es') :
    m.after es = m.after es' := by
  rw [after_hosts .clock hosts, after_hosts .clock hosts', same, same]

private theorem current_after (hosts : ∀ e ∈ es, e ≠ .step) :
    (m.after es).current = m.current := by
  induction es generalizing m with
  | nil => rfl
  | cons e es ih =>
    obtain ⟨host, rest⟩ := List.forall_mem_cons.mp hosts
    rw [after_cons, ih rest, next_eq_told host]
    rfl

private theorem step_after (hosts : ∀ e ∈ es, e ≠ .step)
    (apart : ∀ e ∈ es, ∀ i ∈ m.current, ∀ ch, e.channel? = some ch → i.opcode ∉ ch.readers) :
    (m.after es).step = (m.step.1.after es, m.step.2) := by
  induction es generalizing m with
  | nil => rfl
  | cons e es ih =>
    obtain ⟨host, rest⟩ := List.forall_mem_cons.mp hosts
    obtain ⟨first, later⟩ := List.forall_mem_cons.mp apart
    have single : ∀ e' ∈ [e], e' ≠ .step := List.forall_mem_singleton.mpr host
    have here : (m.next e).current = m.current := current_after single
    rw [after_cons, after_cons, ih rest (by rwa [here]), next_eq_told host, step_told first,
      next_eq_told host]

def reports (m : Machine) (es : List Event) : List (Except Fault Instruction) :=
  (m.answers es).filterMap fun
    | .stepped result => some result
    | _ => none

private theorem answers_append (m : Machine) (es es' : List Event) :
    m.answers (es ++ es') = m.answers es ++ (m.after es).answers es' := by
  induction es generalizing m with
  | nil => rfl
  | cons e es ih => rw [List.cons_append, answers, answers, ih, after_cons, List.cons_append]

private theorem reports_step (m : Machine) (es : List Event) :
    m.reports (es ++ [.step]) = m.reports es ++ [(m.after es).step.2] := by
  rw [reports, answers_append, List.filterMap_append]
  rfl

private theorem reports_hosts (m : Machine) (es : List Event) {more : List Event}
    (hosts : ∀ e ∈ more, e ≠ .step) : m.reports (es ++ more) = m.reports es := by
  have silent (n : Machine) : n.reports more = [] := by
    induction more generalizing n with
    | nil => rfl
    | cons e more ih =>
      obtain ⟨host, rest⟩ := List.forall_mem_cons.mp hosts
      have quiet := ih rest (n.next e)
      cases e with
      | step => exact absurd rfl host
      | tick => exact quiet
      | key key down =>
        rw [reports, answers, answer]
        cases n.setKeyAt key down <;> exact quiet
  rw [reports, answers_append, List.filterMap_append]
  exact (congrArg (m.reports es ++ ·) (silent _)).trans (List.append_nil _)

/-- A run has come to where a base machine comes with nothing but the host events that it has not
passed on yet; those that it has, by channel, are the past. -/
structure Trails (m base : Machine) (past : Channel → List Event) (es rest : List Event) :
    Prop where
  hosts : ∀ e ∈ rest, e ≠ .step
  state : m.after es = base.after rest
  heard : ∀ ch, heard ch es = past ch ++ heard ch rest

namespace Trails

variable {base : Machine} {past : Channel → List Event} {rest : List Event}

theorem append (trails : Trails m base past es rest) {more : List Event}
    (hosts : ∀ e ∈ more, e ≠ .step) : Trails m base past (es ++ more) (rest ++ more) where
  hosts := List.forall_mem_append.mpr ⟨trails.hosts, hosts⟩
  state := by rw [after_append, after_append, trails.state]
  heard ch := by rw [heard_append, heard_append, trails.heard, List.append_assoc]

theorem step (trails : Trails m base past es rest)
    (apart : ∀ i ∈ base.current, ∀ ch : Channel, i.opcode ∉ ch.readers) :
    Trails m base.step.1 past (es ++ [.step]) rest ∧ (m.after es).step.2 = base.step.2 := by
  have same := step_after trails.hosts fun e _ i here ch _ => apart i here ch
  refine ⟨⟨trails.hosts, ?_, fun ch => (heard_step ch es).trans (trails.heard ch)⟩, ?_⟩
  · rw [after_append, after_cons, after_nil, next, trails.state, same]
  · rw [trails.state, same]

private theorem step_reader (trails : Trails m base past es rest) (ch : Channel) {i : Instruction}
    (here : base.current = some i) (reads : i.opcode ∈ ch.readers) :
    Trails m (base.after (Machine.heard ch rest)).step.1
        (fun ch' => if ch' = ch then Machine.heard ch es else past ch') (es ++ [.step])
        (Machine.heard ch.other rest) ∧
      (m.after es).step.2 = (base.after (Machine.heard ch rest)).step.2 := by
  have host_of_heard (ch : Channel) (e : Event) (mem : e ∈ Machine.heard ch rest) : e ≠ .step :=
    trails.hosts e (List.mem_of_mem_filter mem)
  have here' : (base.after (Machine.heard ch rest)).current = some i :=
    (current_after (host_of_heard ch)).trans here
  have apart : i.opcode ∉ ch.other.readers := by
    revert reads
    generalize i.opcode = op
    cases ch <;> cases op <;> decide
  have same := step_after (m := base.after (Machine.heard ch rest)) (host_of_heard ch.other) (by
    intro e mem i' now ch' on
    rw [here'] at now
    cases now
    rw [mem_heard mem] at on
    cases on
    exact apart)
  have state : m.after es =
      (base.after (Machine.heard ch rest)).after (Machine.heard ch.other rest) :=
    trails.state.trans (after_hosts ch trails.hosts)
  refine ⟨⟨host_of_heard ch.other, ?_, fun ch' => ?_⟩, ?_⟩
  · rw [after_append, after_cons, after_nil, next, state, same]
  · rw [heard_step]
    by_cases reader : ch' = ch
    · rw [if_pos reader, reader, heard_heard_other, List.append_nil]
    · have others : ch' = ch.other := by
        revert reader
        cases ch <;> cases ch' <;> decide
      rw [if_neg reader, others, heard_heard]
      exact trails.heard ch.other
  · rw [state, same]

end Trails

private theorem hosts_of_count (none : es.count .step = 0) : ∀ e ∈ es, e ≠ .step := by
  rintro e mem rfl
  exact List.count_eq_zero.mp none mem

private theorem exists_last_step {n : Nat} (steps : es.count .step = n + 1) :
    ∃ pre more, es = pre ++ .step :: more ∧ pre.count .step = n ∧ ∀ e ∈ more, e ≠ .step := by
  induction es using List.reverseRecOn with
  | nil => simp at steps
  | append_singleton es e ih =>
    rw [List.count_append, List.count_singleton] at steps
    by_cases host : e = .step
    · subst host
      exact ⟨es, [], rfl, Nat.succ.inj steps, nofun⟩
    · rw [if_neg (by simpa using host)] at steps
      obtain ⟨pre, more, rfl, before, hosts⟩ := ih steps
      refine ⟨pre, more ++ [e], by simp, before, List.forall_mem_append.mpr ⟨hosts, ?_⟩⟩
      simpa using host

/-- Wherever in two runs the same step is due, they have heard the same of the channel that concerns
the instruction there, if one does. -/
def HeardAlike (m : Machine) (es es' : List Event) : Prop :=
  ∀ pre pre', pre ++ [.step] <+: es → pre' ++ [.step] <+: es' → pre.count .step = pre'.count .step →
    ∀ i ∈ (m.after pre).current, ∀ ch : Channel, i.opcode ∈ ch.readers →
      heard ch pre = heard ch pre'

/-- Two runs that have made the same steps, and differ in host events only that no step has told
yet. -/
def Abreast (m : Machine) (es es' : List Event) : Prop :=
  ∃ base past rest rest', Trails m base past es rest ∧ Trails m base past es' rest' ∧
    m.reports es = m.reports es'

namespace Abreast

theorem symm (abreast : Abreast m es es') : Abreast m es' es := by
  obtain ⟨base, past, rest, rest', trails, trails', reported⟩ := abreast
  exact ⟨base, past, rest', rest, trails', trails, reported.symm⟩

theorem append (abreast : Abreast m es es') {more : List Event}
    (hosts : ∀ e ∈ more, e ≠ .step) : Abreast m (es ++ more) es' := by
  obtain ⟨base, past, rest, rest', trails, trails', reported⟩ := abreast
  exact ⟨base, past, rest ++ more, rest', trails.append hosts, trails',
    (reports_hosts m es hosts).trans reported⟩

theorem step (abreast : Abreast m es es')
    (alike : ∀ i ∈ (m.after es).current, ∀ ch : Channel, i.opcode ∈ ch.readers →
      heard ch es = heard ch es') :
    Abreast m (es ++ [.step]) (es' ++ [.step]) := by
  obtain ⟨base, past, rest, rest', trails, trails', reported⟩ := abreast
  have here : (m.after es).current = base.current := by
    rw [trails.state, current_after trails.hosts]
  rw [here] at alike
  by_cases read : ∃ i ∈ base.current, ∃ ch : Channel, i.opcode ∈ ch.readers
  · obtain ⟨i, now, ch, reads⟩ := read
    have whole := alike i now ch reads
    have same : heard ch rest = heard ch rest' := by
      rw [trails.heard, trails'.heard] at whole
      exact List.append_cancel_left whole
    obtain ⟨first, result⟩ := trails.step_reader ch now reads
    obtain ⟨second, result'⟩ := trails'.step_reader ch now reads
    rw [← whole, ← same] at second
    refine ⟨_, _, _, _, first, second, ?_⟩
    rw [reports_step, reports_step, reported, result, result', same]
  · have apart : ∀ i ∈ base.current, ∀ ch : Channel, i.opcode ∉ ch.readers :=
      fun i now ch reads => read ⟨i, now, ch, reads⟩
    obtain ⟨first, result⟩ := trails.step apart
    obtain ⟨second, result'⟩ := trails'.step apart
    refine ⟨_, _, _, _, first, second, ?_⟩
    rw [reports_step, reports_step, reported, result, result']

/-- Two runs with as many steps are abreast at their ends, if at every step they have heard
alike. -/
theorem of_alike {n : Nat} (steps : es.count .step = n) (steps' : es'.count .step = n)
    (alike : HeardAlike m es es') : Abreast m es es' := by
  induction n generalizing es es' with
  | zero =>
    have start : Trails m m (fun _ => []) [] [] := ⟨nofun, rfl, fun _ => rfl⟩
    have first : Abreast m [] [] := ⟨m, _, [], [], start, start, rfl⟩
    exact ((first.append (hosts_of_count steps)).symm.append (hosts_of_count steps')).symm
  | succ n ih =>
    obtain ⟨pre, more, rfl, before, hosts⟩ := exists_last_step steps
    obtain ⟨pre', more', rfl, before', hosts'⟩ := exists_last_step steps'
    have reached : pre ++ [.step] <+: pre ++ .step :: more := ⟨more, by simp⟩
    have reached' : pre' ++ [.step] <+: pre' ++ .step :: more' := ⟨more', by simp⟩
    have earlier : Abreast m pre pre' := ih before before' fun front front' shorter shorter' =>
      alike front front' (shorter.trans (List.prefix_append _ _))
        (shorter'.trans (List.prefix_append _ _))
    have here := earlier.step (alike pre pre' reached reached' (before.trans before'.symm))
    have whole := ((here.append hosts).symm.append hosts').symm
    rwa [List.append_assoc, List.append_assoc] at whole

private theorem after_eq (abreast : Abreast m es es') (same : ∀ ch, heard ch es = heard ch es') :
    m.after es = m.after es' := by
  obtain ⟨base, past, rest, rest', trails, trails', -⟩ := abreast
  rw [trails.state, trails'.state]
  refine after_eq_of_heard trails.hosts trails'.hosts fun ch => ?_
  have whole := same ch
  rw [trails.heard, trails'.heard] at whole
  exact List.append_cancel_left whole

end Abreast

/-- A tick can change places with a step that neither reads nor sets a timer, a key with a step that
neither looks at the pad nor waits for a key, and a tick with a key, whatever the machine and
whatever becomes of the step. So two runs with the same steps, ticks and keys come to the same, and
their steps report the same, if only the six operations that ticks and keys concern find the same of
these before them. -/
theorem order_seen_by_readers (m : Machine) :
    ((∀ i ∈ m.current, i.opcode ∉ [.readDelay, .setDelay, .setSound]) → m.Commute .tick .step) ∧
      (∀ key down, (∀ i ∈ m.current, i.opcode ∉ [.skipIfKey, .skipUnlessKey, .awaitKey]) →
        m.Commute (.key key down) .step) ∧
      (∀ key down, m.Commute .tick (.key key down)) ∧
      ∀ es es', es.count .step = es'.count .step → (∀ ch, heard ch es = heard ch es') →
        HeardAlike m es es' → m.after es = m.after es' ∧ m.reports es = m.reports es' := by
  refine ⟨fun apart => ?_, fun key down apart => ?_, fun key down => ?_,
    fun es es' steps same alike => ?_⟩
  · refine commute_step (by decide) fun i here ch on => ?_
    cases on
    exact apart i here
  · refine commute_step nofun fun i here ch on => ?_
    cases on
    exact apart i here
  · have swap : (m.next .tick).next (.key key down) = (m.next (.key key down)).next .tick :=
      next_next rfl rfl
    have host : Event.key key down ≠ .step := nofun
    exact ⟨swap, rfl, answer_of_host host m⟩
  · have abreast := Abreast.of_alike steps rfl alike
    refine ⟨abreast.after_eq same, ?_⟩
    obtain ⟨-, -, -, -, -, -, reported⟩ := abreast
    exact reported

/-- A machine whose program sets the delay timer to 5, waits in a loop for key 5 to be down, and
then reads the timer. -/
def pollingKey : Machine :=
  loaded [0x60, 0x05, 0xF0, 0x15, 0xE0, 0x9E, 0x12, 0x04, 0xF1, 0x07]

def keyFirst : List Event :=
  [.key 5 true, .step, .tick, .step, .tick, .step, .tick, .step, .key 9 true]

def keyLast : List Event :=
  [.tick, .step, .step, .tick, .tick, .key 5 true, .step, .key 9 true, .step]

set_option maxRecDepth 20000 in
theorem key_first_or_last :
    pollingKey.Commute .tick .step ∧ pollingKey.Commute (.key 5 true) .step ∧
      pollingKey.after keyFirst = pollingKey.after keyLast ∧
      pollingKey.reports keyFirst = pollingKey.reports keyLast ∧
      (pollingKey.after keyFirst).v 1 = 3 := by
  obtain ⟨untimed, unkeyed, value⟩ :
      (∀ i ∈ pollingKey.current, i.opcode ∉ [.readDelay, .setDelay, .setSound]) ∧
        (∀ i ∈ pollingKey.current, i.opcode ∉ [.skipIfKey, .skipUnlessKey, .awaitKey]) ∧
        (pollingKey.after keyFirst).v 1 = 3 := by decide +kernel
  have listed : ∀ pre ∈ keyFirst.inits, pre ++ [.step] <+: keyFirst →
      ∀ pre' ∈ keyLast.inits, pre' ++ [.step] <+: keyLast → pre.count .step = pre'.count .step →
        ∀ i ∈ (pollingKey.after pre).current, ∀ ch ∈ [Channel.clock, Channel.pad],
          i.opcode ∈ ch.readers → heard ch pre = heard ch pre' := by
    decide +kernel
  have alike : HeardAlike pollingKey keyFirst keyLast := by
    intro pre pre' before before' steps i here ch reads
    have mem := List.mem_inits _ _ |>.mpr ((List.prefix_append pre _).trans before)
    have mem' := List.mem_inits _ _ |>.mpr ((List.prefix_append pre' _).trans before')
    exact listed pre mem before pre' mem' before' steps i here ch (by cases ch <;> decide) reads
  obtain ⟨clock, pad, -, runs⟩ := order_seen_by_readers pollingKey
  obtain ⟨same, reported⟩ :=
    runs keyFirst keyLast rfl (fun ch => by cases ch <;> rfl) alike
  exact ⟨clock untimed, pad 5 true unkeyed, same, reported, value⟩

end Chip8.Machine
