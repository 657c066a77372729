import ZMachine.Proofs.Session.Bounds

/-!
# Runs are steps

A run with a limit takes one step after the other until it has taken as many as it may, until the
run is over, or until a step fails. So it can be cut in two anywhere: the second run goes on where
the first one stopped. Once a run is over nothing moves it any more. All this is said of sinks that
can always pass on what they hold; a sink that cannot may fail a run at its very end.

* `Session.Stepped`          : so many steps that succeed.
* `Session.Ends`             : how stepping comes to an end.
* `Session.steps_eq_iff`     : that is how a run ends.
* `Session.steps_add`        : a run of two parts.
* `Session.Call`, `after`    : whatever may be asked of a session, one call after the other.
* `Session.runs_are_steps`   : all of it.
-/

namespace ZMachine.Session

open ZMachine.Action

variable {H : Host} {s t u : Session H} {flow : Flow} {e : Fault}

/-! ## 1. The sink -/

/-- The sink of both can pass on what it holds, or that of neither. -/
def SameFlushing (s t : Session H) : Prop :=
  t.sink.flushFails = s.sink.flushFails

instance : IsPreorder (Session H) SameFlushing where
  refl _ := rfl
  trans _ _ _ h h' := h'.trans h

theorem sameFlushing_flush : Keeps SameFlushing (flush : Exec H Unit) :=
  keeps_flush.mono fun h => h.held.flushFails

theorem sameFlushing_execute (i : Instruction) : Keeps SameFlushing (execute i : Exec H Flow) := by
  refine Keeps.bind keeps_get fun s => ?_
  cases Operation.standard.lookup i.opcode s.machine.version with
  | none => exact keeps_throw _
  | some op =>
      refine Keeps.bind ?_ fun args => (Operation.spares_perform op i args).mono (·.flushFails)
      constructor
      · intro s a t h
        obtain ⟨m, -, rfl⟩ := onMachine_eq_ok.mp h
        exact refl_of SameFlushing _
      · intro s e t h
        obtain ⟨m, -, rfl⟩ := onMachine_eq_error.mp h
        exact refl_of SameFlushing _

theorem sameFlushing_executeNext : Keeps SameFlushing (executeNext : Exec H Flow) := by
  refine Keeps.bind keeps_get fun s => ?_
  refine Keeps.bind (keeps_lift _) fun i => ?_
  exact Keeps.bind (keeps_modify fun _ => refl_of SameFlushing _) fun _ => sameFlushing_execute i

/-- **No step changes whether the sink can pass on what it holds.** -/
theorem sameFlushing_step : Keeps SameFlushing (step : Exec H Flow) where
  ok {s flow t} h := by
    unfold step at h
    split at h
    · cases h
    · split at h
      · rename_i u hx
        obtain ⟨⟨⟩, q, hf, hq⟩ := bind_eq_ok.mp h
        cases hq
        have hu : SameFlushing s u := sameFlushing_executeNext.ok hx
        exact (sameFlushing_flush.ok hf).trans hu
      · rename_i hx
        cases h
        exact sameFlushing_executeNext.ok hx
      · cases h
  error {s e t} h := by
    unfold step at h
    split at h
    · cases h
      exact refl_of SameFlushing _
    · split at h
      · rename_i u hx
        have hu : SameFlushing s u := sameFlushing_executeNext.ok hx
        rcases bind_eq_error.mp h with hf | ⟨⟨⟩, q, -, hq⟩
        · exact (sameFlushing_flush.error hf).trans hu
        · cases hq
      · cases h
      · rename_i u hx
        cases h
        have hu : SameFlushing s u := sameFlushing_executeNext.error hx
        exact hu

theorem sameFlushing_steps : ∀ count, Keeps SameFlushing (steps count : Exec H Unit)
  | 0 => keeps_pure _
  | count + 1 => by
      refine Keeps.bind keeps_get fun s => Meets.ite (keeps_pure _) ?_
      exact Keeps.bind sameFlushing_step fun _ => sameFlushing_steps count

theorem sameFlushing_runWithLimit (limit : Option Nat) :
    Keeps SameFlushing (runWithLimit limit : Exec H Unit) :=
  Keeps.bind (sameFlushing_steps _) fun _ => sameFlushing_flush

/-- A sink that can pass on what it holds does so without a trace. -/
theorem flush_of_flushes (h : s.sink.flushFails = false) : flush s = .ok () s := by
  have hsink : Sink.flush s.sink = .ok () s.sink := by
    unfold Sink.flush
    rw [get_bind, h]
    rfl
  unfold flush onSink
  rw [hsink]

/-- With such a sink a run with a limit is its steps. -/
theorem runWithLimit_eq_steps (limit : Option Nat) (h : s.sink.flushFails = false) :
    runWithLimit limit s = steps (limit.getD maxSteps) s := by
  unfold runWithLimit
  rw [bind_run]
  cases hs : steps (limit.getD maxSteps) s with
  | ok a t => exact flush_of_flushes (((sameFlushing_steps _).ok hs).trans h)
  | error e t => rfl

/-! ## 2. One step after the other -/

/-- So many steps, one after the other, all of which succeed. -/
inductive Stepped : Nat → Session H → Session H → Prop where
  | none (s : Session H) : Stepped 0 s s
  | more {n : Nat} {s t u : Session H} {flow : Flow} (h : step s = .ok flow t)
      (rest : Stepped n t u) : Stepped (n + 1) s u

/-- How stepping comes to an end that may take so many steps: it has taken them all, or the run is
over before, or a step fails. -/
inductive Ends (limit : Nat) (s : Session H) : EStateM.Result Fault (Session H) Unit → Prop where
  | reached {t : Session H} (h : Stepped limit s t) : Ends limit s (.ok () t)
  | finished {n : Nat} {t : Session H} (h : Stepped n s t) (hn : n ≤ limit)
      (hf : t.state.isFinished = true) : Ends limit s (.ok () t)
  | failed {n : Nat} {t u : Session H} {e : Fault} (h : Stepped n s t) (hn : n < limit)
      (hr : t.state = .running) (he : step t = .error e u) : Ends limit s (.error e u)

theorem Ends.after_step {limit : Nat} {r : EStateM.Result Fault (Session H) Unit}
    (h : step s = .ok flow t) (hr : Ends limit t r) : Ends (limit + 1) s r := by
  cases hr with
  | reached h' => exact .reached (.more h h')
  | finished h' hn hf => exact .finished (.more h h') (Nat.succ_le_succ hn) hf
  | failed h' hn hr he => exact .failed (.more h h') (Nat.succ_lt_succ hn) hr he

theorem steps_of_finished (count : Nat) (h : s.state.isFinished = true) :
    steps count s = .ok () s := by
  cases count with
  | zero => rfl
  | succ count =>
      unfold steps
      rw [get_bind, if_pos h]
      rfl

theorem steps_succ_of_running (count : Nat) (h : s.state = .running) :
    steps (count + 1) s = (step >>= fun _ => steps count : Exec H Unit) s := by
  rw [steps, get_bind, if_neg (not_finished_of_running h)]

/-- Every end of steps is one of the three. -/
theorem ends_steps (count : Nat) (s : Session H) : Ends count s (steps count s) := by
  induction count generalizing s with
  | zero => exact .reached (.none s)
  | succ count ih =>
      by_cases hf : s.state.isFinished = true
      · rw [steps_of_finished _ hf]
        exact .finished (.none s) (Nat.zero_le _) hf
      · have hrun := running_of_not_finished hf
        rw [steps_succ_of_running count hrun, bind_run]
        cases hs : step s with
        | ok flow t => exact (ih t).after_step hs
        | error e t => exact .failed (.none s) (Nat.succ_pos count) hrun hs

/-- Steps that have been taken count towards the limit. -/
theorem steps_of_stepped {n : Nat} (count : Nat) (h : Stepped n s t) :
    steps (n + count) s = steps count t := by
  induction h with
  | none s => rw [Nat.zero_add]
  | @more n s t u flow hs _ ih =>
      rw [Nat.succ_add, steps_succ_of_running _ (running_of_step hs), bind_of_ok hs, ih]

/-- **Stepping ends in one way only**, and it is that of the steps. -/
theorem steps_eq_iff {count : Nat} {r : EStateM.Result Fault (Session H) Unit} :
    steps count s = r ↔ Ends count s r := by
  constructor
  · rintro rfl
    exact ends_steps count s
  · intro h
    cases h with
    | reached h => exact steps_of_stepped 0 h
    | @finished n t h hn hf =>
        obtain ⟨rest, rfl⟩ := Nat.exists_eq_add_of_le hn
        rw [steps_of_stepped rest h, steps_of_finished rest hf]
    | @failed n t u e h hn hr he =>
        obtain ⟨rest, rfl⟩ := Nat.exists_eq_add_of_lt hn
        rw [Nat.add_assoc, steps_of_stepped (rest + 1) h, steps_succ_of_running rest hr, bind_run, he]

/-- **Steps that are taken in two parts are taken in one.** -/
theorem steps_add (a b : Nat) (h : steps a s = .ok () t) : steps b t = steps (a + b) s := by
  cases steps_eq_iff.mp h with
  | reached h' => exact (steps_of_stepped b h').symm
  | @finished n t h' hn hf =>
      obtain ⟨rest, rfl⟩ := Nat.exists_eq_add_of_le hn
      rw [Nat.add_assoc, steps_of_stepped (rest + b) h', steps_of_finished _ hf,
        steps_of_finished _ hf]

/-! ## 3. Counting -/

/-- A step that succeeds is counted once. -/
theorem instructionCount_of_step (h : step s = .ok flow t) :
    t.instructionCount = s.instructionCount + 1 := by
  obtain ⟨i, op, args, m, u, -, -, hp, sink, state, rfl⟩ := step_eq_ok h
  exact ((Operation.spares_perform op i args).ok hp).instructionCount

theorem instructionCount_of_stepped {n : Nat} (h : Stepped n s t) :
    t.instructionCount = s.instructionCount + n := by
  induction h with
  | none s => rfl
  | more hs _ ih =>
      rw [ih, instructionCount_of_step hs]
      omega

/-- Steps that leave the run going have all been taken. -/
theorem instructionCount_of_steps {count : Nat} (h : steps count s = .ok () t)
    (hr : t.state = .running) : t.instructionCount = s.instructionCount + count := by
  cases steps_eq_iff.mp h with
  | reached h => exact instructionCount_of_stepped h
  | finished _ _ hf => exact absurd hf (not_finished_of_running hr)

/-! ## 4. Calls -/

/-- What may be asked of a session. -/
inductive Call where
  | step
  | run
  | runWithLimit (limit : Option Nat)
  deriving DecidableEq, Repr

/-- What a call does to a session, whatever it answers. -/
def Call.perform : Call → Exec H Unit
  | .step => do
      let _ ← Session.step
  | .run => Session.run
  | .runWithLimit limit => Session.runWithLimit limit

/-- The session after a call, whether that succeeds or fails. -/
def afterCall (s : Session H) (call : Call) : Session H :=
  match call.perform s with
  | .ok _ t => t
  | .error _ t => t

/-- The session after some calls. -/
def after (s : Session H) (calls : List Call) : Session H :=
  calls.foldl afterCall s

theorem sameFlushing_perform (call : Call) : Keeps SameFlushing (call.perform : Exec H Unit) := by
  cases call with
  | step => exact Keeps.bind sameFlushing_step fun _ => keeps_pure _
  | run => exact Keeps.bind keeps_get fun s => sameFlushing_runWithLimit _
  | runWithLimit limit => exact sameFlushing_runWithLimit limit

theorem sameFlushing_afterCall (s : Session H) (call : Call) : SameFlushing s (s.afterCall call) := by
  unfold afterCall
  cases h : call.perform s with
  | ok a t => exact (sameFlushing_perform call).ok h
  | error e t => exact (sameFlushing_perform call).error h

theorem sameFlushing_after (calls : List Call) (s : Session H) : SameFlushing s (s.after calls) := by
  induction calls generalizing s with
  | nil => exact refl_of SameFlushing s
  | cons call calls ih => exact trans_of SameFlushing (sameFlushing_afterCall s call) (ih _)

theorem step_of_finished (h : s.state.isFinished = true) : step s = .error .halted s := by
  unfold step
  rw [if_pos h]

/-- A call changes nothing about a run that is over. -/
theorem afterCall_of_finished (call : Call) (hf : s.state.isFinished = true)
    (hs : s.sink.flushFails = false) : s.afterCall call = s := by
  have hrun (limit : Option Nat) : runWithLimit limit s = .ok () s := by
    rw [runWithLimit_eq_steps limit hs, steps_of_finished _ hf]
  unfold afterCall
  cases call with
  | step =>
      have h : Call.step.perform s = .error .halted s := by
        show (step >>= fun _ => pure () : Exec H Unit) s = _
        rw [bind_run, step_of_finished hf]
      rw [h]
  | run =>
      have h : Call.run.perform s = .ok () s := hrun s.settings.maxInstructions
      rw [h]
  | runWithLimit limit =>
      have h : (Call.runWithLimit limit).perform s = .ok () s := hrun limit
      rw [h]

/-- **Nothing moves a run that is over.** -/
theorem after_of_finished (calls : List Call) (hf : s.state.isFinished = true)
    (hs : s.sink.flushFails = false) : s.after calls = s := by
  induction calls with
  | nil => rfl
  | cons call calls ih =>
      unfold after
      rw [List.foldl_cons, afterCall_of_finished call hf hs]
      exact ih

/-! ## 5. Runs -/

/-- **Runs are steps.** With a sink that can pass on what it holds, a run with a limit ends where
stepping ends; cut in two it gives the same result and the same session; while it goes on it has
counted as many instructions as it was allowed. Whatever has been asked of the session, once the run
is over no call changes the session any more, and a step says that it has come to a halt. -/
theorem runs_are_steps (s : Session H) (hs : s.sink.flushFails = false) :
    (∀ n r, runWithLimit (some n) s = r ↔ Ends n s r) ∧
      (∀ a b t, runWithLimit (some a) s = .ok () t →
        runWithLimit (some b) t = runWithLimit (some (a + b)) s) ∧
      (∀ a t, runWithLimit (some a) s = .ok () t → t.state = .running →
        t.instructionCount = s.instructionCount + a) ∧
      ∀ calls, (s.after calls).state.isFinished = true →
        step (s.after calls) = .error .halted (s.after calls) ∧
          ∀ more, (s.after calls).after more = s.after calls := by
  have hrun (n : Nat) : runWithLimit (some n) s = steps n s := runWithLimit_eq_steps (some n) hs
  refine ⟨fun n r => ?_, fun a b t h => ?_, fun a t h hr => ?_, fun calls hf => ⟨?_, fun more => ?_⟩⟩
  · rw [hrun]
    exact steps_eq_iff
  · rw [hrun] at h
    have ht : t.sink.flushFails = false := ((sameFlushing_steps a).ok h).trans hs
    rw [hrun, runWithLimit_eq_steps (some b) ht]
    exact steps_add a b h
  · rw [hrun] at h
    exact instructionCount_of_steps h hr
  · exact step_of_finished hf
  · exact after_of_finished more hf ((sameFlushing_after calls s).trans hs)

/-- A story in version 5 that adds twice and quits. -/
def adding : Array UInt8 :=
  #[5, 0, 0, 0, 0, 0, 0, 0x40, 0, 0, 0, 0, 0, 0, 0, 0x40,
    0, 0, 0, 0, 0, 0, 0, 0, 0, 0, 0, 0, 0, 0, 0, 0,
    0, 0, 0, 0, 0, 0, 0, 0, 0, 0, 0, 0, 0, 0, 0, 0,
    0, 0, 0, 0, 0, 0, 0, 0, 0, 0, 0, 0, 0, 0, 0, 0,
    0x14, 1, 2, 0, 0x14, 3, 4, 0, 0xba]

/-- Two steps leave it running; five more, of which it takes one, are what seven are. -/
theorem adding_runs :
    (started adding {}).sink.flushFails = false ∧
      ∃ t, runWithLimit (some 2) (started adding {}) = .ok () t ∧ t.state = .running ∧
        t.instructionCount = (started adding {}).instructionCount + 2 ∧
        runWithLimit (some 5) t = runWithLimit (some 7) (started adding {}) ∧
        Ends 7 (started adding {}) (runWithLimit (some 7) (started adding {})) ∧
        ((started adding {}).after [.runWithLimit (some 7)]).state = .quit ∧
        ∀ more, ((started adding {}).after [.runWithLimit (some 7)]).after more =
          (started adding {}).after [.runWithLimit (some 7)] := by
  have hs : (started adding {}).sink.flushFails = false := by decide +kernel
  obtain ⟨hends, hsplits, hcounts, hhalts⟩ := runs_are_steps (started adding {}) hs
  have hquit : ((started adding {}).after [.runWithLimit (some 7)]).state = .quit := by
    decide +kernel
  have hrunning : (match runWithLimit (some 2) (started adding {}) with
      | .ok _ t => some t.state
      | .error _ _ => none) = some .running := by
    decide +kernel
  cases ht : runWithLimit (some 2) (started adding {}) with
  | error e t =>
      rw [ht] at hrunning
      cases hrunning
  | ok a t =>
      rw [ht] at hrunning
      have hr : t.state = .running := Option.some.inj hrunning
      exact ⟨hs, t, rfl, hr, hcounts 2 t ht hr, hsplits 2 5 t ht, (hends 7 _).mp rfl, hquit,
        (hhalts _ (by rw [hquit]; rfl)).2⟩

end ZMachine.Session
