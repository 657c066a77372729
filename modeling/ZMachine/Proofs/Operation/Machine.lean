import ZMachine.Operation.Arithmetic
import ZMachine.Operation.Routines
import ZMachine.Operation.Tables
import ZMachine.Proofs.Machine.Steering

/-!
# Instructions on the machine alone

Arithmetic, comparisons, variables, tables and routines: each of these instructions goes where the
flow it reports says. One lemma for each, in the order of the modules that define them. Most of them
leave alone every value on the stack, and so may be said to reach down as far as one likes; those
that do not are `changeVar`, `changeAndCompare`, `store`, `retPopped`, `dropTop` and `pull`.
-/

namespace ZMachine.Handler

open ZMachine.Action Machine

variable {i : Instruction} {args : List Word} {reach : UInt8 → Nat}

/-! ## 1. Arithmetic -/

theorem steers_binary (f : Word → Word → Except Fault Word) : Steers i none reach (binary f i args) := by
  refine Steers.bind (keeps_operand i args 0) fun a => ?_
  refine Steers.bind (keeps_operand i args 1) fun b => ?_
  refine Steers.bind (keeps_lift (f a b)) fun result => ?_
  exact steers_deliver i result

theorem steers_bitNot : Steers i none reach (bitNot i args) :=
  Steers.bind (keeps_operand i args 0) fun a => steers_deliver i (~~~a)

/-! ## 2. Comparisons and jumps -/

theorem steers_je : Steers i none reach (je i args) := by
  refine Steers.bind (keeps_operand i args 0) fun a => ?_
  refine Steers.bind (keeps_operand i args 1) fun _ => ?_
  refine Steers.bind (keeps_furtherOperands args) fun others => ?_
  exact steers_branch _

theorem steers_compare (test : Word → Word → Bool) : Steers i none reach (compare test i args) := by
  refine Steers.bind (keeps_operand i args 0) fun a => ?_
  refine Steers.bind (keeps_operand i args 1) fun b => ?_
  exact steers_branch _

theorem operand_eq_ok {m m' : Machine} {index : Nat} {a : Word}
    (h : operand i args index m = .ok a m') : args[index]? = some a ∧ m' = m := by
  unfold operand at h
  cases hv : args[index]? with
  | none => rw [hv] at h; cases h
  | some value =>
      rw [hv] at h
      cases h
      exact ⟨rfl, rfl⟩

/-- What follows the reading of an operand may be taken to know it. -/
theorem steers_bind_operand {leap : Option Word} {index : Nat} {f : Word → Action Machine Flow}
    (h : ∀ a, args[index]? = some a → Steers i leap reach (f a)) :
    Steers i leap reach (operand i args index >>= f) where
  ok hx := by
    obtain ⟨a, q, ho, hf⟩ := bind_eq_ok.mp hx
    obtain ⟨ha, rfl⟩ := operand_eq_ok ho
    exact (h a ha).ok hf
  error hx := by
    rcases bind_eq_error.mp hx with ho | ⟨a, q, ho, hf⟩
    · exact .of_calm ((keeps_operand i args index).error ho)
    · obtain ⟨ha, rfl⟩ := operand_eq_ok ho
      exact (h a ha).error hf

/-- How many values an instruction spends that changes the variable it names in place. -/
def inPlaceOf (args : List Word) : Nat :=
  (args[0]?.map inPlace).getD 0

theorem inPlaceOf_eq {var : Word} (h : args[0]? = some var) : inPlaceOf args = inPlace var := by
  rw [inPlaceOf, h]
  rfl

theorem spends_change (f : Word → Word) (var : Word) :
    Keeps (Spends True (inPlace var)) (change f var) := by
  have h : Keeps (Spends True (0 + (inPlace var + 0))) (change f var) :=
    spends_bind (keeps_loadIndirect var) fun value =>
      spends_bind (spends_storeIndirect var (f value)) fun _ => keeps_pure _
  rwa [Nat.zero_add] at h

theorem steers_changeAndCompare (f : Word → Word) (test : Word → Word → Bool) :
    Steers i none (fun _ => inPlaceOf args) (changeAndCompare f test i args) := by
  refine steers_bind_operand fun var hvar => ?_
  refine Steers.bind (keeps_operand i args 1) fun limit => ?_
  rw [inPlaceOf_eq hvar]
  show Steers i none (fun _ => inPlace var + 0) _
  exact Steers.bind_spends (spends_change f var) fun value => steers_branch _

theorem steers_jz : Steers i none reach (jz i args) :=
  Steers.bind (keeps_operand i args 0) fun _ => steers_branch _

theorem steers_jumpBy : Steers i args[0]? reach (jumpBy i args) := by
  refine steers_bind_operand fun offset ha => ⟨fun {m flow m'} h => ?_, fun {m e m'} h => ?_⟩
  · obtain ⟨u, q, hj, h⟩ := bind_eq_ok.mp h
    cases h
    exact .jumped offset (.refl m) ha (jump_eq_ok.mp hj) (List.drop_suffix _ _)
  · rcases bind_eq_error.mp h with hj | ⟨u, q, -, h⟩
    · rw [jump_eq_error hj]
      exact .of_calm (.refl m)
    · cases h

/-! ## 3. Variables and tables -/

theorem steers_changeVar (f : Word → Word) :
    Steers i none (fun _ => inPlaceOf args) (changeVar f i args) := by
  refine steers_bind_operand fun var hvar => ?_
  rw [inPlaceOf_eq hvar]
  show Steers i none (fun _ => inPlace var + 0) _
  exact Steers.bind_spends (spends_change f var) fun _ => steers_next

theorem steers_load : Steers i none reach (load i args) := by
  refine Steers.bind (keeps_operand i args 0) fun var => ?_
  exact Steers.bind (keeps_loadIndirect var) fun value => steers_deliver i value

theorem steers_store : Steers i none (fun _ => inPlaceOf args) (store i args) := by
  refine steers_bind_operand fun var hvar => ?_
  refine Steers.bind (keeps_operand i args 1) fun value => ?_
  rw [inPlaceOf_eq hvar]
  show Steers i none (fun _ => inPlace var + 0) _
  exact Steers.bind_spends (spends_storeIndirect var value) fun _ => steers_next

theorem steers_loadw : Steers i none reach (loadw i args) := by
  refine Steers.bind (keeps_operand i args 0) fun array => ?_
  refine Steers.bind (keeps_operand i args 1) fun index => ?_
  refine Steers.bind keeps_get fun m => ?_
  exact Steers.bind (keeps_lift _) fun value => steers_deliver i value

theorem steers_loadb : Steers i none reach (loadb i args) := by
  refine Steers.bind (keeps_operand i args 0) fun array => ?_
  refine Steers.bind (keeps_operand i args 1) fun index => ?_
  refine Steers.bind keeps_get fun m => ?_
  exact Steers.bind (keeps_lift _) fun value => steers_deliver i _

theorem steers_storew : Steers i none reach (storew i args) := by
  refine Steers.bind (keeps_operand i args 0) fun array => ?_
  refine Steers.bind (keeps_operand i args 1) fun index => ?_
  refine Steers.bind (keeps_operand i args 2) fun value => ?_
  exact Steers.bind (keeps_writeWord _ value) fun _ => steers_next

theorem steers_storeb : Steers i none reach (storeb i args) := by
  refine Steers.bind (keeps_operand i args 0) fun array => ?_
  refine Steers.bind (keeps_operand i args 1) fun index => ?_
  refine Steers.bind (keeps_operand i args 2) fun value => ?_
  exact Steers.bind (keeps_writeByte _ _) fun _ => steers_next

theorem steers_scanTable : Steers i none reach (scanTable i args) := by
  refine Steers.bind (keeps_operand i args 0) fun target => ?_
  refine Steers.bind (keeps_operand i args 1) fun table => ?_
  refine Steers.bind (keeps_operand i args 2) fun count => ?_
  refine Steers.bind keeps_get fun m => ?_
  refine Steers.bind (keeps_lift _) fun found => ?_
  exact Steers.bind (keeps_storeResult i.store _) fun _ => steers_branch _

theorem keeps_copyForward : ∀ count source dest : Nat,
    Keeps Steady (Table.copyForward count source dest)
  | 0, _, _ => keeps_pure _
  | count + 1, source, dest => by
      refine Keeps.bind keeps_get fun m => ?_
      refine Keeps.bind (keeps_lift _) fun b => ?_
      refine Keeps.bind (keeps_writeByte dest b) fun _ => ?_
      exact keeps_copyForward count (source + 1) (dest + 1)

theorem keeps_copy (source dest : Nat) (size : Int) : Keeps Steady (Table.copy source dest size) := by
  refine Meets.ite (keeps_writeSlice _ _) ?_
  refine Meets.ite (keeps_copyForward _ _ _) ?_
  refine Keeps.bind keeps_get fun m => ?_
  exact Keeps.bind (keeps_lift _) fun data => keeps_writeSlice _ _

theorem steers_copyTable : Steers i none reach (copyTable i args) := by
  refine Steers.bind (keeps_operand i args 0) fun source => ?_
  refine Steers.bind (keeps_operand i args 1) fun dest => ?_
  refine Steers.bind (keeps_operand i args 2) fun size => ?_
  exact Steers.bind (keeps_copy _ _ _) fun _ => steers_next

/-! ## 4. Routines and the stack -/

/-- A call enters the routine that the first operand names, unless that names none. -/
theorem meets_callRoutine :
    Meets (callRoutine i args)
      (fun m flow m' => Goes True i none 0 m flow m' ∨
        flow = .called ∧ ∃ packed rest, args = packed :: rest ∧ Entered packed rest i.store m m')
      (Fails True) := by
  unfold callRoutine
  cases args with
  | nil =>
      have h : Steers i none (fun _ => 0) (do
          let routine ← operand i [] 0
          let arguments ← furtherOperands []
          call routine arguments i.store) := by
        constructor
        · intro m flow m' hx
          obtain ⟨routine, q, ho, -⟩ := bind_eq_ok.mp hx
          cases (operand_eq_ok ho).1
        · intro m e m' hx
          rcases bind_eq_error.mp hx with hx | ⟨routine, q, ho, -⟩
          · exact .of_calm ((keeps_operand i [] 0).error hx)
          · cases (operand_eq_ok ho).1
      exact ⟨fun hx => .inl (h.ok hx), h.error⟩
  | cons packed rest =>
      have h := meets_call i packed rest i.store
      exact ⟨fun hx => (h.ok hx).imp_right fun h' => ⟨h'.1, packed, rest, rfl, h'.2⟩, h.error⟩

theorem steers_retValue : Steers i none reach (retValue i args) :=
  Steers.bind (keeps_operand i args 0) fun value => steers_ret value

theorem steers_retPopped : Steers i none (fun _ => 1) (retPopped i args) := by
  show Steers i none (fun _ => 1 + 0) _
  exact Steers.bind_spends spends_pop fun value => steers_ret value

theorem steers_dropTop : Steers i none (fun _ => 1) (dropTop i args) := by
  show Steers i none (fun _ => 1 + 0) _
  exact Steers.bind_spends spends_pop fun _ => steers_next

theorem steers_catchFrame : Steers i none reach (catchFrame i args) :=
  Steers.bind keeps_get fun _ => steers_deliver i _

theorem steers_throwTo : Steers i none reach (throwTo i args) := by
  refine Steers.bind (keeps_operand i args 0) fun value => ?_
  refine Steers.bind (keeps_operand i args 1) fun number => ?_
  constructor
  · intro m flow m' h
    rw [get_bind] at h
    split at h
    · cases h
    · rw [set_bind] at h
      obtain ⟨rfl, hl⟩ := ret_eq_ok h
      exact .returned (.refl m) (hl.of_suffix (List.drop_suffix _ _)) (List.drop_suffix _ _)
  · intro m e m' h
    rw [get_bind] at h
    split at h
    · cases h
      exact .of_calm (.refl m)
    · rw [set_bind] at h
      obtain ⟨pc, stack, frames, hs, hf, rfl⟩ := ret_eq_error h
      exact .mk m pc stack frames (.refl m) hs (hf.trans (List.drop_suffix _ _))

theorem steers_pushValue : Steers i none reach (pushValue i args) := by
  refine Steers.bind (keeps_operand i args 0) fun value => ?_
  exact Steers.bind (keeps_push value) fun _ => steers_next

theorem keeps_popUserStack (table : Nat) : Keeps Steady (popUserStack table) := by
  refine Keeps.bind keeps_get fun m => ?_
  refine Keeps.bind (keeps_lift _) fun free => ?_
  refine Keeps.bind (keeps_lift _) fun value => ?_
  exact Keeps.bind (keeps_writeWord table _) fun _ => keeps_pure _

/-- How many values are spent to pull one. In version 6 it may come from a stack in memory. -/
def pulledBy (args : List Word) (version : UInt8) : Nat :=
  if version = 6 then (if args.isEmpty then 1 else 0) else 1 + inPlaceOf args

theorem steers_pull : Steers i none (pulledBy args) (pull i args) := by
  refine Steers.of_version fun version => ?_
  unfold pulledBy
  by_cases hv : version = 6
  · rw [if_pos hv]
    cases args with
    | nil =>
        refine ⟨(do let value ← pop; deliver i value), ?_, fun m hm => ?_⟩
        · show Steers i none (fun _ => 1 + 0) _
          exact Steers.bind_spends spends_pop fun value => steers_deliver i value
        · unfold pull
          rw [get_bind, if_pos (hm.trans hv)]
    | cons table rest =>
        refine ⟨(do let value ← popUserStack table.toNat; deliver i value), ?_, fun m hm => ?_⟩
        · exact Steers.bind (keeps_popUserStack table.toNat) fun value => steers_deliver i value
        · unfold pull
          rw [get_bind, if_pos (hm.trans hv)]
  · rw [if_neg hv]
    refine ⟨(do
      let var ← operand i args 0
      let value ← pop
      storeIndirect var value
      return .next), ?_, fun m hm => ?_⟩
    · refine steers_bind_operand fun var hvar => ?_
      rw [inPlaceOf_eq hvar]
      refine Steers.bind_spends spends_pop fun value => ?_
      show Steers i none (fun _ => inPlace var + 0) _
      exact Steers.bind_spends (spends_storeIndirect var value) fun _ => steers_next
    · unfold pull
      rw [get_bind, if_neg (hm ▸ hv)]

theorem steers_checkArgCount : Steers i none reach (checkArgCount i args) := by
  refine Steers.bind (keeps_operand i args 0) fun count => ?_
  exact Steers.bind keeps_currentFrame fun frame => steers_branch _

end ZMachine.Handler
