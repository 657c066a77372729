import ZMachine.Proofs.Operation.Machine
import ZMachine.Proofs.Operation.Saving
import ZMachine.Proofs.Operation.Session
import ZMachine.Session.Run

/-!
# One step

What a step does, whichever of the operations it carries out.

* `Operation.steers_perform`           : the table of all operations but calls and those that save,
  restore or start again.
* `Session.Executes`                   : the step a session is about to take.
* `Session.step_eq_ok`, `step_eq_error` : a step taken apart into its instruction, the reading of
  its operands and the operation.
* `Session.step_leads`, `step_fails`   : where a step leads that does not turn back.
* `Session.step_lasting`               : what a step leaves alone.
* `Session.following`                  : the session so many steps later, to be computed.
-/

namespace ZMachine

open ZMachine.Action

variable {H : Host}

/-! ## 1. All operations -/

/-- An opcode stands for the operations it has entries for, in the versions of the entry. -/
theorem DispatchTable.lookup_eq_some {α : Type} {table : DispatchTable α} {opcode : Opcode}
    {version : UInt8} {target : α} (h : table.lookup opcode version = some target) :
    ∃ entry ∈ table.entries, entry.opcode = opcode ∧ entry.target = target ∧
      entry.first ≤ version := by
  obtain ⟨entry, hf, ht⟩ := Option.map_eq_some_iff.mp h
  have hfits := List.find?_some hf
  unfold DispatchTable.fits at hfits
  simp only [Bool.and_eq_true, beq_iff_eq, decide_eq_true_eq] at hfits
  exact ⟨entry, List.mem_of_find?_eq_some hf, hfits.1.1, ht, hfits.1.2⟩

namespace Operation

/-- Whether an operation neither calls a routine nor saves, restores or starts again. -/
def isPlain : Operation → Bool
  | call | save | restore | restart | saveUndo | restoreUndo => false
  | _ => true

/-- The operand of an operation that jumps whatever happens. -/
def leap (op : Operation) (args : List Word) : Option Word :=
  match op with
  | jump => args[0]?
  | _ => none

/-- How many values at the top of the stack an operation takes off, or puts others in the place of,
once its operands have been read. The values that a return drops are not counted. -/
def reach (op : Operation) (args : List Word) (version : UInt8) : Nat :=
  match op with
  | retPopped | dropTop => 1
  | pull => Handler.pulledBy args version
  | inc | dec | incChk | decChk | store => Handler.inPlaceOf args
  | _ => 0

open Handler Session in
/-- **Every plain operation goes where the flow it reports says**, and reaches no further down the
stack than by the values it spends. -/
theorem steers_perform {op : Operation} (h : op.isPlain = true) (i : Instruction)
    (args : List Word) :
    Steers i (op.leap args) (op.reach args) (op.perform i args : Exec H Flow) := by
  cases op with
  | bitOr => exact steers_onMachine (steers_binary _)
  | bitAnd => exact steers_onMachine (steers_binary _)
  | add => exact steers_onMachine (steers_binary _)
  | sub => exact steers_onMachine (steers_binary _)
  | mul => exact steers_onMachine (steers_binary _)
  | div => exact steers_onMachine (steers_binary _)
  | mod => exact steers_onMachine (steers_binary _)
  | bitNot => exact steers_onMachine steers_bitNot
  | random => exact steers_random
  | logShift => exact steers_onMachine (steers_binary _)
  | artShift => exact steers_onMachine (steers_binary _)
  | je => exact steers_onMachine steers_je
  | jl => exact steers_onMachine (steers_compare _)
  | jg => exact steers_onMachine (steers_compare _)
  | decChk => exact steers_onMachine (steers_changeAndCompare _ _)
  | incChk => exact steers_onMachine (steers_changeAndCompare _ _)
  | test => exact steers_onMachine (steers_compare _)
  | jz => exact steers_onMachine steers_jz
  | jump => exact steers_onMachine steers_jumpBy
  | nop => exact steers_onMachine Machine.steers_next
  | quit => exact steers_onMachine Machine.steers_quit
  | verify => exact (steers_verify : Steers i none _ (Handler.verify i args))
  | piracy => exact steers_onBranch true
  | inc => exact steers_onMachine (steers_changeVar _)
  | dec => exact steers_onMachine (steers_changeVar _)
  | load => exact steers_onMachine steers_load
  | store => exact steers_onMachine steers_store
  | loadw => exact steers_onMachine steers_loadw
  | loadb => exact steers_onMachine steers_loadb
  | storew => exact steers_onMachine steers_storew
  | storeb => exact steers_onMachine steers_storeb
  | scanTable => exact steers_onMachine steers_scanTable
  | copyTable => exact steers_onMachine steers_copyTable
  | rtrue => exact steers_onMachine (Machine.steers_ret 1)
  | rfalse => exact steers_onMachine (Machine.steers_ret 0)
  | retPopped => exact steers_onMachine steers_retPopped
  | dropTop => exact steers_onMachine steers_dropTop
  | catchFrame => exact steers_onMachine steers_catchFrame
  | ret => exact steers_onMachine steers_retValue
  | throwTo => exact steers_onMachine steers_throwTo
  | push => exact steers_onMachine steers_pushValue
  | pull => exact steers_onMachine steers_pull
  | checkArgCount => exact steers_onMachine steers_checkArgCount
  | print => exact (steers_print : Steers i none _ (Handler.print i args))
  | printRet => exact (steers_printRet : Steers i none _ (Handler.printRet i args))
  | newLine => exact (steers_newLine : Steers i none _ (Handler.newLine i args))
  | printAddr => exact steers_printAddr
  | printPaddr => exact steers_printPaddr
  | printChar => exact steers_printChar
  | printNum => exact steers_printNum
  | printTable => exact steers_printTable
  | printUnicode => exact steers_printUnicode
  | checkUnicode => exact steers_checkUnicode
  | outputStream => exact steers_outputStream
  | sread => exact .of_stays stays_sread
  | aread => exact .of_stays stays_aread
  | readChar => exact .of_stays (stays_readCharacter : Stays (readCharacter i args))
  | inputStream => exact steers_inputStream
  | tokenise => exact .of_stays stays_tokeniseBuffer
  | getSibling => exact steers_relative _
  | getChild => exact steers_relative _
  | getParent => exact steers_relative _
  | getPropLen => exact steers_getPropLen
  | removeObj => exact .of_stays stays_removeObj
  | printObj => exact steers_printObj
  | jin => exact steers_jin
  | testAttr => exact steers_testAttr
  | setAttr => exact .of_stays stays_setAttr
  | clearAttr => exact .of_stays stays_clearAttr
  | insertObj => exact .of_stays stays_insertObj
  | getProp => exact steers_propertyOp _
  | getPropAddr => exact steers_propertyOp _
  | getNextProp => exact steers_propertyOp _
  | putProp => exact .of_stays stays_putProp
  | showStatus => exact (steers_showStatus : Steers i none _ (Handler.showStatus i args))
  | setColour => exact steers_setColour
  | splitWindow => exact steers_screenOp _
  | setWindow => exact steers_screenOp _
  | eraseWindow => exact steers_screenOp _
  | eraseLine => exact steers_screenOp _
  | setCursor => exact steers_setCursor
  | getCursor => exact steers_getCursor
  | setTextStyle => exact steers_screenOp _
  | bufferMode => exact steers_screenOp _
  | soundEffect => exact steers_next
  | setFont => exact steers_setFont
  | call => cases h
  | save => cases h
  | restore => cases h
  | restart => cases h
  | saveUndo => cases h
  | restoreUndo => cases h

theorem special_of_not_isPlain {op : Operation} (h : ¬ op.isPlain = true) :
    op = call ∨ op = save ∨ op = restore ∨ op = restart ∨ op = saveUndo ∨ op = restoreUndo := by
  cases op <;> simp [isPlain] at h ⊢

end Operation

/-- How an operation gets from the machine with its operands read to the machine after it: it goes
where its flow says, or it enters a routine. -/
inductive Machine.Leads (sized : Prop) (i : Instruction) (op : Operation) (args : List Word)
    (m : Machine) : Flow → Machine → Prop where
  | goes {flow : Flow} {m' : Machine}
      (h : Goes sized i (op.leap args) (op.reach args m.version) m flow m') :
      Leads sized i op args m flow m'
  | enters {m' : Machine} (packed : Word) (rest : List Word) (hop : op = .call)
      (ha : args = packed :: rest) (h : Entered packed rest i.store m m') :
      Leads sized i op args m .called m'

namespace Operation

open Handler Session

variable {op : Operation} {i : Instruction} {args : List Word} {s t : Session H}

/-- **An operation that does not turn back goes where its flow says, or enters a routine.** -/
theorem leads_of_perform {flow : Flow} (hn : ¬ s.TurnsBack op args)
    (h : op.perform i args s = .ok flow t) :
    Machine.Leads H.KeepsSize i op args s.machine flow t.machine := by
  by_cases hp : op.isPlain = true
  · exact .goes ((steers_perform hp i args).ok h).2
  · rcases special_of_not_isPlain hp with rfl | rfl | rfl | rfl | rfl | rfl
    · obtain ⟨m, hm, rfl⟩ := onMachine_eq_ok.mp h
      rcases meets_callRoutine.ok hm with hg | ⟨rfl, packed, rest, ha, he⟩
      · exact .goes hg.weaken
      · exact .enters packed rest rfl ha he
    · exact .goes (moves_save.ok h)
    · have h : Handler.restore i args s = .ok flow t := h
      rcases restore_cases i args s with ⟨snapshot, hs, hr⟩ | hr | ⟨e, hr⟩
      · exact absurd (.returns snapshot hs (putsBack_of_resumeFrom (hr ▸ h))) hn
      · exact .goes ((steers_report false).ok (hr ▸ h)).2
      · rw [hr] at h
        cases h
    · exact absurd (.restarts rfl) hn
    · exact .goes ((moves_saveUndo i args).ok h)
    · have h : Handler.restoreUndo i args s = .ok flow t := h
      rcases restoreUndo_cases i args s with ⟨snapshot, hs, hr⟩ | hr
      · exact absurd (.returns snapshot hs (putsBack_of_resumeFrom (hr ▸ h))) hn
      · exact .goes ((steers_answer 0).ok (hr ▸ h)).2

/-- An operation that fails and does not turn back enters no routine. -/
theorem fails_of_perform {e : Fault} (hn : ¬ s.TurnsBack op args)
    (h : op.perform i args s = .error e t) : Machine.Fails H.KeepsSize s.machine t.machine := by
  by_cases hp : op.isPlain = true
  · exact ((steers_perform hp i args).error h).2
  · rcases special_of_not_isPlain hp with rfl | rfl | rfl | rfl | rfl | rfl
    · obtain ⟨m, hm, rfl⟩ := onMachine_eq_error.mp h
      exact (meets_callRoutine.error hm).weaken
    · exact moves_save.error h
    · have h : Handler.restore i args s = .error e t := h
      rcases restore_cases i args s with ⟨snapshot, hs, hr⟩ | hr | ⟨e', hr⟩
      · have hm : t.machine = s.machine :=
          fails_of_resumeFrom (fun hp => hn (.returns snapshot hs hp)) (hr ▸ h)
        rw [hm]
        exact .of_calm (.refl _)
      · exact ((steers_report false).error (hr ▸ h)).2
      · rw [hr] at h
        cases h
        exact .of_calm (.refl _)
    · exact absurd (.restarts rfl) hn
    · exact (moves_saveUndo i args).error h
    · have h : Handler.restoreUndo i args s = .error e t := h
      rcases restoreUndo_cases i args s with ⟨snapshot, hs, hr⟩ | hr
      · have hm : t.machine = s.machine :=
          fails_of_resumeFrom (fun hp => hn (.returns snapshot hs hp)) (hr ▸ h)
        rw [hm]
        exact .of_calm (.refl _)
      · exact ((steers_answer 0).error (hr ▸ h)).2

/-- Nothing but a call enters a routine. -/
theorem eq_call_of_perform (h : op.perform i args s = .ok .called t) : op = .call := by
  by_cases hp : op.isPlain = true
  · exact absurd rfl ((steers_perform hp i args).ok h).2.ne_called
  · rcases special_of_not_isPlain hp with rfl | rfl | rfl | rfl | rfl | rfl
    · rfl
    · exact absurd rfl (moves_save.ok h).ne_called
    · have h : Handler.restore i args s = .ok .called t := h
      rcases restore_cases i args s with ⟨snapshot, -, hr⟩ | hr | ⟨e, hr⟩
      · exact absurd rfl (flow_of_resumeFrom (hr ▸ h))
      · exact absurd rfl ((steers_report false).ok (hr ▸ h)).2.ne_called
      · rw [hr] at h
        cases h
    · have h : Handler.restart i args s = .ok .called t := h
      cases flow_of_restart h
    · exact absurd rfl ((moves_saveUndo i args).ok h).ne_called
    · have h : Handler.restoreUndo i args s = .ok .called t := h
      rcases restoreUndo_cases i args s with ⟨snapshot, -, hr⟩ | hr
      · exact absurd rfl (flow_of_resumeFrom (hr ▸ h))
      · exact absurd rfl ((steers_answer 0).ok (hr ▸ h)).2.ne_called

/-- **No operation changes the story or the settings; only saving changes what is saved.** -/
theorem spares_perform (op : Operation) (i : Instruction) (args : List Word) :
    Keeps (Spared op) (op.perform i args : Exec H Flow) := by
  by_cases hp : op.isPlain = true
  · exact (steers_perform hp i args).spares
  · rcases special_of_not_isPlain hp with rfl | rfl | rfl | rfl | rfl | rfl
    · refine spares_onMachine ⟨fun hm => ?_, fun hm => (meets_callRoutine.error hm).sameMake⟩
      rcases meets_callRoutine.ok hm with hg | ⟨-, packed, rest, -, he⟩
      · exact hg.sameMake
      · exact he.sameMake
    · exact spares_save
    · exact spares_restore
    · exact spares_restart i args
    · exact spares_saveUndo i args
    · exact spares_restoreUndo i args

end Operation

/-! ## 2. A step taken apart -/

namespace Session

/-- The instruction that a session is about to execute, and the operation it stands for. -/
structure Executes (s : Session H) (i : Instruction) (op : Operation) : Prop where
  running : s.state = .running
  decoded : Instruction.decode s.machine.memory s.machine.pc s.machine.version = .ok i
  found : Operation.standard.lookup i.opcode s.machine.version = some op

/-- The values of the operands, and the machine once they have been read. -/
def Reads (s : Session H) (i : Instruction) (args : List Word) (m : Machine) : Prop :=
  Machine.resolve i.operands (s.advance i).machine = .ok args m

/-- The session behind an instruction whose operands have been read. -/
def ready (s : Session H) (i : Instruction) (m : Machine) : Session H :=
  { s.advance i with machine := m }

/-- The next step puts an earlier state in place of the present one. -/
def StepsBack (s : Session H) : Prop :=
  ∃ i op args m, s.Executes i op ∧ s.Reads i args m ∧ (s.ready i m).TurnsBack op args

variable {s t u : Session H} {flow : Flow} {e : Fault}

/-- Once its operands have been read, an instruction is the operation that it stands for. -/
theorem execute_of_resolve {i : Instruction} {op : Operation} {args : List Word} {m : Machine}
    (hfound : Operation.standard.lookup i.opcode s.machine.version = some op)
    (hread : Machine.resolve i.operands s.machine = .ok args m) :
    execute i s = op.perform i args { s with machine := m } := by
  unfold execute
  rw [get_bind, hfound]
  exact bind_of_ok (onMachine_eq_ok.mpr ⟨m, hread, rfl⟩)

theorem execute_eq_ok {i : Instruction} :
    execute i s = .ok flow t ↔
      ∃ op args m, Operation.standard.lookup i.opcode s.machine.version = some op ∧
        Machine.resolve i.operands s.machine = .ok args m ∧
        op.perform i args { s with machine := m } = .ok flow t := by
  constructor
  · intro h
    unfold execute at h
    rw [get_bind] at h
    cases hl : Operation.standard.lookup i.opcode s.machine.version with
    | none => rw [hl] at h; cases h
    | some op =>
        rw [hl] at h
        obtain ⟨args, q, hr, hp⟩ := bind_eq_ok.mp h
        obtain ⟨m, hm, rfl⟩ := onMachine_eq_ok.mp hr
        exact ⟨op, args, m, rfl, hm, hp⟩
  · intro h
    obtain ⟨op, args, m, hfound, hread, hp⟩ := h
    rw [execute_of_resolve hfound hread, hp]

theorem execute_eq_error {i : Instruction} (h : execute i s = .error e t) :
    t = s ∨ ∃ op, Operation.standard.lookup i.opcode s.machine.version = some op ∧
      ((∃ m, Machine.resolve i.operands s.machine = .error e m ∧ t = { s with machine := m }) ∨
        ∃ args m, Machine.resolve i.operands s.machine = .ok args m ∧
          op.perform i args { s with machine := m } = .error e t) := by
  unfold execute at h
  rw [get_bind] at h
  cases hl : Operation.standard.lookup i.opcode s.machine.version with
  | none =>
      rw [hl] at h
      cases h
      exact .inl rfl
  | some op =>
      rw [hl] at h
      refine .inr ⟨op, rfl, ?_⟩
      rcases bind_eq_error.mp h with hr | ⟨args, q, hr, hp⟩
      · exact .inl (onMachine_eq_error.mp hr)
      · obtain ⟨m, hm, rfl⟩ := onMachine_eq_ok.mp hr
        exact .inr ⟨args, m, hm, hp⟩

theorem running_of_not_finished (h : ¬ s.state.isFinished = true) : s.state = .running := by
  cases hs : s.state with
  | running => rfl
  | quit => rw [hs] at h; exact absurd rfl h
  | failed => rw [hs] at h; exact absurd rfl h

theorem not_finished_of_running (h : s.state = .running) : ¬ s.state.isFinished = true := by
  rw [h]
  decide

theorem executeNext_eq_ok (hs : s.state = .running) :
    executeNext s = .ok flow t ↔ ∃ i op args m, s.Executes i op ∧ s.Reads i args m ∧
      op.perform i args (s.ready i m) = .ok flow t := by
  unfold executeNext
  rw [get_bind, lift_bind_eq_ok]
  constructor
  · intro h
    obtain ⟨i, hi, h⟩ := h
    rw [modify_bind] at h
    obtain ⟨op, args, m, hop, hm, hp⟩ := execute_eq_ok.mp h
    exact ⟨i, op, args, m, ⟨hs, hi, hop⟩, hm, hp⟩
  · intro h
    obtain ⟨i, op, args, m, he, hm, hp⟩ := h
    refine ⟨i, he.decoded, ?_⟩
    rw [modify_bind]
    exact execute_eq_ok.mpr ⟨op, args, m, he.found, hm, hp⟩

/-- **A step that succeeds carries an operation out.** An operation that stops the story also has
the sink pass on what it holds. -/
theorem step_eq_ok (h : step s = .ok flow t) :
    ∃ i op args m u, s.Executes i op ∧ s.Reads i args m ∧
      op.perform i args (s.ready i m) = .ok flow u ∧
      ∃ sink state, t = { u with sink, state } := by
  unfold step at h
  by_cases hs : s.state.isFinished = true
  · rw [if_pos hs] at h
    cases h
  · rw [if_neg hs] at h
    cases hx : executeNext s with
    | error e u => rw [hx] at h; cases h
    | ok flow' u =>
        obtain ⟨i, op, args, m, he, hr, hp⟩ := (executeNext_eq_ok (running_of_not_finished hs)).mp hx
        rw [hx] at h
        cases flow' with
        | quit =>
            obtain ⟨⟨⟩, q, hf, hq⟩ := bind_eq_ok.mp h
            cases hq
            unfold flush onSink at hf
            split at hf
            · cases hf
              exact ⟨i, op, args, m, u, he, hr, hp, _, _, rfl⟩
            · cases hf
        | next => cases h; exact ⟨i, op, args, m, _, he, hr, hp, _, _, rfl⟩
        | branched => cases h; exact ⟨i, op, args, m, _, he, hr, hp, _, _, rfl⟩
        | called => cases h; exact ⟨i, op, args, m, _, he, hr, hp, _, _, rfl⟩
        | returned value => cases h; exact ⟨i, op, args, m, _, he, hr, hp, _, _, rfl⟩

/-- How far a step gets that fails, and what it leaves: the run may be over already, the instruction
may be none or mean nothing, an operand or the operation may fail, and once the story has stopped
the sink may. -/
inductive Stops (s : Session H) (e : Fault) : Session H → Prop where
  | finished (h : s.state.isFinished = true) : Stops s e s
  | undecoded (hs : s.state = .running)
      (h : Instruction.decode s.machine.memory s.machine.pc s.machine.version = .error e) :
      Stops s e { s with state := .failed }
  | unknown (i : Instruction) (hs : s.state = .running) :
      Stops s e { s.advance i with state := .failed }
  | unread (i : Instruction) (m : Machine) (hs : s.state = .running)
      (h : Machine.Popped (s.advance i).machine m) :
      Stops s e { s.ready i m with state := .failed }
  | failed (i : Instruction) (op : Operation) (args : List Word) (m : Machine) (u : Session H)
      (he : s.Executes i op) (hr : s.Reads i args m)
      (hp : op.perform i args (s.ready i m) = .error e u) : Stops s e { u with state := .failed }
  | unflushed (i : Instruction) (op : Operation) (args : List Word) (m : Machine) (u : Session H)
      (sink : Sink) (he : s.Executes i op) (hr : s.Reads i args m)
      (hp : op.perform i args (s.ready i m) = .ok .quit u) :
      Stops s e { u with sink, state := .quit }

/-- **A step that fails stops at one of its parts.** -/
theorem step_eq_error (h : step s = .error e t) : Stops s e t := by
  unfold step at h
  by_cases hs : s.state.isFinished = true
  · rw [if_pos hs] at h
    cases h
    exact .finished hs
  · rw [if_neg hs] at h
    have hrun := running_of_not_finished hs
    cases hx : executeNext s with
    | error e' u =>
        rw [hx] at h
        cases h
        unfold executeNext at hx
        rw [get_bind] at hx
        rcases lift_bind_eq_error.mp hx with ⟨hd, rfl⟩ | ⟨i, hi, hx⟩
        · exact .undecoded hrun hd
        · rw [modify_bind] at hx
          rcases execute_eq_error hx with rfl | ⟨op, hop, ⟨m, hm, rfl⟩ | ⟨args, m, hm, hp⟩⟩
          · exact .unknown i hrun
          · exact .unread i m hrun ((Machine.keeps_resolve i.operands).error hm)
          · exact .failed i op args m u ⟨hrun, hi, hop⟩ hm hp
    | ok flow' u =>
        rw [hx] at h
        -- After an operation that succeeds only the sink can fail, and only if the story was stopped.
        cases flow' with
        | quit =>
            obtain ⟨i, op, args, m, he, hr, hp⟩ := (executeNext_eq_ok hrun).mp hx
            rcases bind_eq_error.mp h with hf | ⟨⟨⟩, q, -, hq⟩
            · unfold flush onSink at hf
              split at hf
              · cases hf
              · cases hf
                exact .unflushed i op args m u _ he hr hp
            · cases hq
        | next => cases h
        | branched => cases h
        | called => cases h
        | returned value => cases h

/-- Only a run that is not over takes a step. -/
theorem running_of_step (h : step s = .ok flow t) : s.state = .running := by
  obtain ⟨i, op, args, m, u, he, -⟩ := step_eq_ok h
  exact he.running

/-- A step that fails ends the run, unless that was over before. -/
theorem finished_of_step_error {e : Fault} (h : step s = .error e t) : t.state ≠ .running := by
  cases step_eq_error h with
  | finished hs => exact fun hr => not_finished_of_running hr hs
  | undecoded _ _ => exact nofun
  | unknown i _ => exact nofun
  | unread i m _ _ => exact nofun
  | failed i op args m u _ _ _ => exact nofun
  | unflushed i op args m u sink _ _ _ => exact nofun

/-- A step whose operation does not stop the story is that operation. -/
theorem step_of_perform {i : Instruction} {op : Operation} {args : List Word} {m : Machine}
    (he : s.Executes i op) (hr : s.Reads i args m)
    (hp : op.perform i args (s.ready i m) = .ok flow t) (hq : flow ≠ .quit) :
    step s = .ok flow t := by
  have hx := (executeNext_eq_ok he.running).mpr ⟨i, op, args, m, he, hr, hp⟩
  unfold step
  rw [if_neg (not_finished_of_running he.running), hx]
  cases flow with
  | quit => exact absurd rfl hq
  | next => rfl
  | branched => rfl
  | called => rfl
  | returned value => rfl

/-- A step whose operation fails ends the run with that fault. -/
theorem step_of_perform_error {i : Instruction} {op : Operation} {args : List Word} {m : Machine}
    (he : s.Executes i op) (hr : s.Reads i args m)
    (hp : op.perform i args (s.ready i m) = .error e t) :
    step s = .error e { t with state := .failed } := by
  have hexecute : execute i (s.advance i) = .error e t :=
    (execute_of_resolve (s := s.advance i) he.found hr).trans hp
  have hx : executeNext s = .error e t := by
    unfold executeNext
    rw [get_bind]
    exact lift_bind_eq_error.mpr (.inr ⟨i, he.decoded, hexecute⟩)
  unfold step
  rw [if_neg (not_finished_of_running he.running), hx]

theorem Executes.unique {i j : Instruction} {op op' : Operation} (h : s.Executes i op)
    (h' : s.Executes j op') : i = j ∧ op = op' := by
  have hi : i = j := Except.ok.inj (h.decoded.symm.trans h'.decoded)
  subst hi
  exact ⟨rfl, Option.some.inj (h.found.symm.trans h'.found)⟩

/-- A step that goes on is what its operation makes of the machine with the operands read. -/
theorem step_eq_ok_iff {i : Instruction} {op : Operation} {args : List Word} {m : Machine}
    (flow : Flow) (he : s.Executes i op) (hr : s.Reads i args m) (hq : flow ≠ .quit) :
    step s = .ok flow t ↔ op.perform i args (s.ready i m) = .ok flow t := by
  constructor
  · intro h
    obtain ⟨j, op', args', m', u, he', hr', hp, -⟩ := step_eq_ok h
    obtain ⟨rfl, rfl⟩ := he.unique he'
    cases hr.symm.trans hr'
    rw [hp, ← h, step_of_perform he hr hp hq]
  · exact fun hp => step_of_perform he hr hp hq

theorem Reads.popped {i : Instruction} {args : List Word} {m : Machine} (h : s.Reads i args m) :
    Machine.Popped (s.advance i).machine m :=
  (Machine.keeps_resolve i.operands).ok h

theorem Reads.memory {i : Instruction} {args : List Word} {m : Machine} (h : s.Reads i args m) :
    m.memory = s.machine.memory :=
  h.popped.memory

theorem Reads.sameMake {i : Instruction} {args : List Word} {m : Machine} (h : s.Reads i args m) :
    Machine.SameMake s.machine m :=
  ⟨h.popped.quiet.version, h.popped.quiet.stackLimit⟩

/-! ## 3. Where a step leads -/

/-- Nothing but a restart and the two kinds of restore turns back. -/
theorem not_stepsBack {i : Instruction} {op : Operation} (he : s.Executes i op)
    (h₁ : op ≠ .restart) (h₂ : op ≠ .restore) (h₃ : op ≠ .restoreUndo) : ¬ s.StepsBack := by
  intro h
  obtain ⟨j, op', args, m, he', -, hb⟩ := h
  obtain ⟨rfl, rfl⟩ := he.unique he'
  cases hb with
  | restarts h => exact h₁ h
  | returns snapshot hs _ =>
      unfold snapshotFor at hs
      split at hs
      · exact h₂ rfl
      · exact h₃ rfl
      · cases hs

/-- **A step that succeeds and does not turn back goes where its flow says, or enters a
routine.** -/
theorem step_leads (hn : ¬ s.StepsBack) (h : step s = .ok flow t) :
    ∃ i op args m, s.Executes i op ∧ s.Reads i args m ∧
      Machine.Leads H.KeepsSize i op args m flow t.machine := by
  obtain ⟨i, op, args, m, u, he, hr, hp, sink, state, rfl⟩ := step_eq_ok h
  have hl := Operation.leads_of_perform (fun hb => hn ⟨i, op, args, m, he, hr, hb⟩) hp
  exact ⟨i, op, args, m, he, hr, hl⟩

/-- A step that fails and does not turn back enters no routine. -/
theorem step_fails (hn : ¬ s.StepsBack) (h : step s = .error e t) :
    ∃ pc, Machine.Fails H.KeepsSize { s.machine with pc } t.machine := by
  cases step_eq_error h with
  | finished _ => exact ⟨s.machine.pc, .of_calm (.refl _)⟩
  | undecoded _ _ => exact ⟨s.machine.pc, .of_calm (.refl _)⟩
  | unknown i _ => exact ⟨s.machine.pc + i.size, .of_calm (.refl _)⟩
  | unread i m _ hr => exact ⟨s.machine.pc + i.size, .of_calm (.of_quiet hr.quiet)⟩
  | failed i op args m u he hr hp =>
      have hf := Operation.fails_of_perform (fun hb => hn ⟨i, op, args, m, he, hr, hb⟩) hp
      exact ⟨s.machine.pc + i.size, .after_calm (.of_quiet hr.popped.quiet) hf⟩
  | unflushed i op args m u sink he hr hp =>
      refine ⟨s.machine.pc + i.size, .after_calm (.of_quiet hr.popped.quiet) ?_⟩
      cases Operation.leads_of_perform (fun hb => hn ⟨i, op, args, m, he, hr, hb⟩) hp with
      | goes hg =>
          cases hg with
          | quit hc => exact .of_calm hc

/-! ## 4. What a step leaves alone -/

/-- What a step that carries an operation out leaves alone. -/
structure Lasting (op : Operation) (s t : Session H) : Prop where
  story : t.story = s.story
  saves : op ≠ .save → t.saves = s.saves
  undo : op ≠ .saveUndo → t.undo = s.undo
  machine : Machine.SameMake s.machine t.machine

theorem step_lasting (h : step s = .ok flow t) : ∃ i op, s.Executes i op ∧ Lasting op s t := by
  obtain ⟨i, op, args, m, u, he, hr, hp, sink, state, rfl⟩ := step_eq_ok h
  have hs := (Operation.spares_perform op i args).ok hp
  exact ⟨i, op, he, hs.story, hs.saves, hs.undo, hr.sameMake.trans hs.machine⟩

/-! ## 5. Steps that are computed -/

/-- The operation of the next instruction. -/
def operation? (s : Session H) : Option Operation :=
  match Instruction.decode s.machine.memory s.machine.pc s.machine.version with
  | .ok i => Operation.standard.lookup i.opcode s.machine.version
  | .error _ => none

/-- The flow that the next step reports, if it succeeds. -/
def flow? (s : Session H) : Option Flow :=
  match step s with
  | .ok flow _ => some flow
  | .error _ _ => none

/-- The session so many steps later. -/
def following (s : Session H) : Nat → Session H
  | 0 => s
  | n + 1 =>
      match step (s.following n) with
      | .ok _ t => t
      | .error _ t => t

theorem Executes.operation?_eq {i : Instruction} {op : Operation} (h : s.Executes i op) :
    s.operation? = some op := by
  unfold operation?
  rw [h.decoded]
  exact h.found

theorem step_following {n : Nat} (h : (s.following n).flow? = some flow) :
    step (s.following n) = .ok flow (s.following (n + 1)) := by
  unfold flow? at h
  cases hs : step (s.following n) with
  | error e t => rw [hs] at h; cases h
  | ok flow' t =>
      rw [hs] at h
      cases h
      have ht : s.following (n + 1) = t := by rw [following, hs]
      rw [ht]

theorem not_stepsBack_of_operation? {op : Operation} (h : s.operation? = some op)
    (h₁ : op ≠ .restart) (h₂ : op ≠ .restore) (h₃ : op ≠ .restoreUndo) : ¬ s.StepsBack := by
  intro h
  obtain ⟨i, op', args, m, he, hr, hb⟩ := h
  have hop : op = op' := Option.some.inj (h.symm.trans he.operation?_eq)
  subst hop
  exact not_stepsBack he h₁ h₂ h₃ ⟨i, op, args, m, he, hr, hb⟩

/-- A machine at work with nothing around it: no input, no helpers, nothing saved. -/
def bare (machine : Machine) : Session Host.standard where
  machine
  story := machine.memory.bytes
  input := ⟨[], []⟩
  sink := {}
  decoder := ZString.decode
  objects := none
  lexer := none
  saves := none
  screen := {}
  random := Random.uniform 0
  currentPc := 0
  undo := none
  streams := {}
  state := .running
  instructionCount := 0
  settings := {}
  trace := []

end Session

end ZMachine
