import ZMachine.Proofs.Machine.Steering
import ZMachine.Session.Reading

/-!
# What an instruction leaves alone around the machine

The changes an instruction makes to a session, beside those to its machine: input, output, screen,
random numbers, streams and the host's helpers. The story, the saved games and the run itself stay.

* `Host.KeepsSize`      : a host whose helpers never change the size of memory.
* `Session.Kept`, `Held`: the parts of a session that no instruction changes, and those that only
  saving changes.
* `Session.Calm`, `Quiet` : changes that stay in the running routine and leave alone every value on
  the stack.
* `Session.Steers`      : computations on a session whose results go where their flow says.
* `Session.Stays`       : computations on a session that go on behind the instruction, or stop.
-/

namespace ZMachine

open ZMachine.Action

/-- The host's helpers never change the size of memory. -/
structure Host.KeepsSize (H : Host) : Prop where
  setAttribute : ∀ object number, Keeps (fun s t => t.2.size = s.2.size)
    (H.objectModel.setAttribute object number)
  clearAttribute : ∀ object number, Keeps (fun s t => t.2.size = s.2.size)
    (H.objectModel.clearAttribute object number)
  insert : ∀ object dest, Keeps (fun s t => t.2.size = s.2.size) (H.objectModel.insert object dest)
  remove : ∀ object, Keeps (fun s t => t.2.size = s.2.size) (H.objectModel.remove object)
  putProperty : ∀ object property value, Keeps (fun s t => t.2.size = s.2.size)
    (H.objectModel.putProperty object property value)
  tokenise : ∀ request, Keeps (fun s t => t.2.size = s.2.size) (H.tokenizer.tokenise request)

/-- A change of the forest alone keeps memory as it is. -/
theorem ObjectForest.keeps_change (f : ObjectForest → ObjectForest) :
    Keeps (fun s t => t.2.size = s.2.size) (change f) :=
  keeps_modify fun _ => rfl

theorem WordCounter.size_count {memory memory' : Memory} {request : TokenRequest}
    (h : count memory request = .ok memory') : memory'.size = memory.size := by
  obtain ⟨range, -, h⟩ := except_bind_eq_ok.mp h
  obtain ⟨text, -, h⟩ := except_bind_eq_ok.mp h
  obtain ⟨u, -, h⟩ := except_bind_eq_ok.mp h
  cases h
  exact Memory.size_setByte ..

/-- The helpers of this library keep the size of memory. -/
theorem Host.standard_keepsSize : Host.standard.KeepsSize where
  setAttribute object number := ObjectForest.keeps_change (·.setAttribute object number)
  clearAttribute object number := ObjectForest.keeps_change (·.clearAttribute object number)
  insert object dest := ObjectForest.keeps_change (·.insert object dest)
  remove object := ObjectForest.keeps_change (·.remove object)
  putProperty object property value := by
    constructor
    · intro s u t h
      obtain ⟨forest, -, h⟩ := lift_bind_eq_ok.mp h
      cases h
      rfl
    · intro s e t h
      rcases lift_bind_eq_error.mp h with ⟨-, rfl⟩ | ⟨forest, -, h⟩
      · rfl
      · cases h
  tokenise request := by
    constructor
    · rintro ⟨lexer, memory⟩ u t h
      cases lexer with
      | withoutDictionary => cases h
      | counting requests =>
          obtain ⟨memory', hc, h⟩ := lift_bind_eq_ok.mp h
          cases h
          exact WordCounter.size_count hc
    · rintro ⟨lexer, memory⟩ e t h
      cases lexer with
      | withoutDictionary =>
          cases h
          rfl
      | counting requests =>
          rcases lift_bind_eq_error.mp h with ⟨-, rfl⟩ | ⟨memory', -, h⟩
          · rfl
          · cases h

namespace Sink

instance : IsPreorder Sink (fun s t => t.flushFails = s.flushFails) where
  refl _ := rfl
  trans _ _ _ h h' := h'.trans h

theorem keeps_write (text : String) :
    Keeps (fun s t => t.flushFails = s.flushFails) (write text) := by
  refine Keeps.bind keeps_get fun sink => ?_
  refine Keeps.bind (keeps_modify fun _ => rfl) fun _ => ?_
  exact Meets.ite (keeps_throw _) (keeps_pure _)

theorem keeps_flush : Keeps (fun s t => t.flushFails = s.flushFails) flush :=
  Keeps.bind keeps_get fun _ => Meets.ite (keeps_throw _) (keeps_pure _)

end Sink

namespace Session

variable {H : Host} {α : Type}

/-! ## 1. Calm changes -/

/-- What no instruction changes. -/
structure Kept (s t : Session H) : Prop where
  story : t.story = s.story
  decoder : t.decoder = s.decoder
  settings : t.settings = s.settings
  currentPc : t.currentPc = s.currentPc
  state : t.state = s.state
  instructionCount : t.instructionCount = s.instructionCount
  trace : t.trace = s.trace
  /-- Whether the sink can pass on what it holds. -/
  flushFails : t.sink.flushFails = s.sink.flushFails

/-- What only the instructions that save change. -/
structure Held (s t : Session H) : Prop extends Kept s t where
  saves : t.saves = s.saves
  undo : t.undo = s.undo

theorem Held.refl (s : Session H) : Held s s :=
  ⟨⟨rfl, rfl, rfl, rfl, rfl, rfl, rfl, rfl⟩, rfl, rfl⟩

theorem Kept.trans {s t u : Session H} (h : Kept s t) (h' : Kept t u) : Kept s u where
  story := h'.story.trans h.story
  decoder := h'.decoder.trans h.decoder
  settings := h'.settings.trans h.settings
  currentPc := h'.currentPc.trans h.currentPc
  state := h'.state.trans h.state
  instructionCount := h'.instructionCount.trans h.instructionCount
  trace := h'.trace.trans h.trace
  flushFails := h'.flushFails.trans h.flushFails

theorem Held.trans {s t u : Session H} (h : Held s t) (h' : Held t u) : Held s u :=
  ⟨h.toKept.trans h'.toKept, h'.saves.trans h.saves, h'.undo.trans h.undo⟩

/-- The machine has made a calm change that left alone every value on its stack, and what only
saving changes is as it was. -/
structure Calm (sized : Prop) (s t : Session H) : Prop where
  held : Held s t
  machine : Machine.Spends sized 0 s.machine t.machine

/-- A calm change that keeps the size of memory. -/
abbrev Quiet : Session H → Session H → Prop := Calm True

theorem Calm.refl {sized : Prop} (s : Session H) : Calm sized s s :=
  ⟨.refl s, .refl _⟩

theorem Calm.trans {sized : Prop} {s t u : Session H} (h : Calm sized s t) (h' : Calm sized t u) :
    Calm sized s u :=
  ⟨h.held.trans h'.held, h.machine.trans h'.machine⟩

instance {sized : Prop} : IsPreorder (Session H) (Calm sized) where
  refl := .refl
  trans _ _ _ := .trans

theorem Calm.of_quiet {sized : Prop} {s t : Session H} (h : Quiet s t) : Calm sized s t :=
  ⟨h.held, .of_steady h.machine⟩

/-! ## 2. Computations on a part -/

theorem onMachine_eq_ok {x : Action Machine α} {s t : Session H} {a : α} :
    onMachine x s = .ok a t ↔ ∃ m, x s.machine = .ok a m ∧ t = { s with machine := m } := by
  unfold onMachine
  cases hx : x s.machine with
  | ok b m =>
      constructor
      · intro h
        cases h
        exact ⟨m, rfl, rfl⟩
      · intro h
        obtain ⟨m', h, rfl⟩ := h
        cases h
        rfl
  | error e m =>
      constructor
      · intro h
        cases h
      · intro h
        obtain ⟨m', h, -⟩ := h
        cases h

theorem onMachine_eq_error {x : Action Machine α} {s t : Session H} {e : Fault} :
    onMachine x s = .error e t ↔ ∃ m, x s.machine = .error e m ∧ t = { s with machine := m } := by
  unfold onMachine
  cases hx : x s.machine with
  | ok b m =>
      constructor
      · intro h
        cases h
      · intro h
        obtain ⟨m', h, -⟩ := h
        cases h
  | error e' m =>
      constructor
      · intro h
        cases h
        exact ⟨m, rfl, rfl⟩
      · intro h
        obtain ⟨m', h, rfl⟩ := h
        cases h
        rfl

/-- A write to the machine's memory, which must lie in it. -/
theorem onUpdate_eq_ok {addr width : Nat} {change : Memory → Memory} {s t : Session H} {u : Unit} :
    onMachine (Machine.update addr width change) s = .ok u t ↔
      addr + width ≤ s.machine.memory.size ∧
        t = { s with machine := { s.machine with memory := change s.machine.memory } } := by
  rw [onMachine_eq_ok]
  constructor
  · intro h
    obtain ⟨m, hm, rfl⟩ := h
    obtain ⟨hle, rfl⟩ := Machine.update_eq_ok.mp hm
    exact ⟨hle, rfl⟩
  · intro h
    obtain ⟨hle, rfl⟩ := h
    exact ⟨_, Machine.update_eq_ok.mpr ⟨hle, rfl⟩, rfl⟩

theorem held_machine (s : Session H) (m : Machine) : Held s { s with machine := m } :=
  ⟨⟨rfl, rfl, rfl, rfl, rfl, rfl, rfl, rfl⟩, rfl, rfl⟩

theorem keeps_onMachine {x : Action Machine α} (hx : Keeps Machine.Steady x) :
    Keeps Quiet (onMachine x : Exec H α) where
  ok {s a t} h := by
    obtain ⟨m, hm, rfl⟩ := onMachine_eq_ok.mp h
    exact ⟨held_machine s m, hx.ok hm⟩
  error {s e t} h := by
    obtain ⟨m, hm, rfl⟩ := onMachine_eq_error.mp h
    exact ⟨held_machine s m, hx.error hm⟩

/-- What goes on around the machine is quiet. -/
theorem quiet_around (s : Session H) (input : Input) (objects : Option H.Objects)
    (lexer : Option H.Lexer) (screen : Screen) (random : Random) (streams : Streams) :
    Quiet s { s with input, objects, lexer, screen, random, streams } :=
  ⟨⟨⟨rfl, rfl, rfl, rfl, rfl, rfl, rfl, rfl⟩, rfl, rfl⟩, .refl _⟩

theorem keeps_onInput (x : Action Input α) : Keeps Quiet (onInput x : Exec H α) where
  ok {s a t} h := by
    unfold onInput at h
    split at h
    · cases h
      exact quiet_around ..
    · cases h
  error {s e t} h := by
    unfold onInput at h
    split at h
    · cases h
    · cases h
      exact quiet_around ..

/-- What a sink receives is quiet, too. -/
theorem keeps_onSink {x : Action Sink α} (hx : Keeps (fun s t => t.flushFails = s.flushFails) x) :
    Keeps Quiet (onSink x : Exec H α) where
  ok {s a t} h := by
    unfold onSink at h
    split at h
    · rename_i hb
      cases h
      exact ⟨⟨⟨rfl, rfl, rfl, rfl, rfl, rfl, rfl, hx.ok hb⟩, rfl, rfl⟩, .refl _⟩
    · cases h
  error {s e t} h := by
    unfold onSink at h
    split at h
    · cases h
    · rename_i hb
      cases h
      exact ⟨⟨⟨rfl, rfl, rfl, rfl, rfl, rfl, rfl, hx.error hb⟩, rfl, rfl⟩, .refl _⟩

theorem keeps_onScreen (change : Screen → Screen) : Keeps Quiet (onScreen change : Exec H Unit) :=
  keeps_modify fun _ => quiet_around ..

theorem keeps_streams (change : Session H → Streams) :
    Keeps Quiet (modify fun s => { s with streams := change s } : Exec H Unit) :=
  keeps_modify fun _ => quiet_around ..

theorem keeps_theObjects : Keeps Quiet (theObjects : Exec H H.Objects) := by
  refine Keeps.bind keeps_get fun s => ?_
  split
  · exact keeps_pure _
  · exact keeps_throw _

theorem keeps_askObjects (question : H.Objects → Memory → Except Fault α) :
    Keeps Quiet (askObjects question : Exec H α) := by
  refine Keeps.bind keeps_theObjects fun objects => ?_
  exact Keeps.bind keeps_get fun s => keeps_lift _

theorem keeps_theLexer : Keeps Quiet (theLexer : Exec H H.Lexer) := by
  refine Keeps.bind keeps_get fun s => ?_
  split
  · exact keeps_pure _
  · exact keeps_throw _

theorem keeps_memory : Keeps Quiet (memory : Exec H Memory) :=
  Keeps.bind keeps_get fun _ => keeps_pure _

theorem keeps_decodeText (addr : Nat) : Keeps Quiet (decodeText addr : Exec H String) := by
  refine Keeps.bind keeps_get fun s => ?_
  exact Keeps.bind (keeps_lift _) fun _ => keeps_pure _

/-- What a helper of the host does to its own state and to memory is calm. -/
theorem calm_helper {sized : Prop} (s : Session H) (objects : Option H.Objects)
    (lexer : Option H.Lexer) {memory : Memory} (h : sized → memory.size = s.machine.memory.size) :
    Calm sized s { s with objects, lexer, machine := { s.machine with memory } } :=
  ⟨⟨⟨rfl, rfl, rfl, rfl, rfl, rfl, rfl, rfl⟩, rfl, rfl⟩,
    ⟨rfl, rfl, rfl, rfl, rfl, Nat.le_max_left _ _, h⟩, List.suffix_refl _⟩

/-- A change of the host's objects, and of memory along with them. -/
theorem keeps_onObjects {action : Action (H.Objects × Memory) α}
    (h : H.KeepsSize → Keeps (fun s t => t.2.size = s.2.size) action) :
    Keeps (Calm H.KeepsSize) (onObjects action : Exec H α) := by
  refine Keeps.bind (keeps_theObjects.mono .of_quiet) fun objects => ?_
  constructor
  · intro s a t ht
    split at ht
    · rename_i b objects' memory hb
      cases ht
      exact calm_helper s _ _ fun hs => (h hs).ok hb
    · cases ht
  · intro s e t ht
    split at ht
    · cases ht
    · rename_i e' objects' memory hb
      cases ht
      exact calm_helper s _ _ fun hs => (h hs).error hb

/-- A change of the host's tokenizer, and of memory along with it. -/
theorem keeps_onLexer {action : Action (H.Lexer × Memory) α}
    (h : H.KeepsSize → Keeps (fun s t => t.2.size = s.2.size) action) :
    Keeps (Calm H.KeepsSize) (onLexer action : Exec H α) := by
  refine Keeps.bind (keeps_theLexer.mono .of_quiet) fun lexer => ?_
  constructor
  · intro s a t ht
    split at ht
    · rename_i b lexer' memory hb
      cases ht
      exact calm_helper s _ _ fun hs => (h hs).ok hb
    · cases ht
  · intro s e t ht
    split at ht
    · cases ht
    · rename_i e' lexer' memory hb
      cases ht
      exact calm_helper s _ _ fun hs => (h hs).error hb

/-! ## 3. Output and input -/

theorem keeps_captureChar (c : Char) : Keeps Quiet (captureChar c : Exec H Unit) := by
  refine Keeps.bind keeps_get fun s => ?_
  split
  · exact keeps_pure _
  · exact Keeps.bind (keeps_onMachine (Machine.keeps_writeByte _ _)) fun _ => keeps_streams _

theorem keeps_captureChars : ∀ text : List Char, Keeps Quiet (captureChars text : Exec H Unit)
  | [] => keeps_pure _
  | c :: rest => Keeps.bind (keeps_captureChar c) fun _ => keeps_captureChars rest

theorem keeps_writeOutput (text : String) : Keeps Quiet (writeOutput text : Exec H Unit) := by
  refine Keeps.bind keeps_get fun s => ?_
  exact Meets.ite (Meets.ite (keeps_onSink (Sink.keeps_write text)) (keeps_pure _))
    (keeps_captureChars _)

theorem keeps_selectSink (selected : Bool) : Keeps Quiet (selectSink selected : Exec H Unit) :=
  keeps_streams _

theorem keeps_openTable (addr : Nat) : Keeps Quiet (openTable addr : Exec H Unit) := by
  refine Keeps.bind keeps_memory fun m => ?_
  exact Keeps.bind (keeps_lift _) fun _ => keeps_streams _

theorem keeps_closeTable : Keeps Quiet (closeTable : Exec H Unit) := by
  refine Keeps.bind keeps_get fun s => ?_
  split
  · exact keeps_pure _
  · refine Keeps.bind (keeps_streams _) fun _ => ?_
    exact keeps_onMachine (Machine.keeps_writeWord _ _)

theorem keeps_flush : Keeps Quiet (flush : Exec H Unit) :=
  keeps_onSink Sink.keeps_flush

theorem keeps_readLine : Keeps Quiet (readLine : Exec H (Option (List Char))) :=
  Keeps.bind keeps_flush fun _ => keeps_onInput _

theorem keeps_readChar : Keeps Quiet (readChar : Exec H (Option Char)) :=
  Keeps.bind keeps_flush fun _ => keeps_onInput _

theorem keeps_readCodes (small : List Char → List Char) (capacity : Nat) :
    Keeps Quiet (readCodes small capacity : Exec H (Option (List UInt8))) := by
  refine Keeps.bind keeps_readLine fun line => ?_
  cases line with
  | none => exact keeps_pure _
  | some line => exact keeps_pure _

theorem keeps_tokenise (request : TokenRequest) :
    Keeps (Calm H.KeepsSize) (tokenise request : Exec H Unit) :=
  Meets.ite (keeps_pure _) (keeps_onLexer fun h => h.tokenise request)

/-! ## 4. Steering a session -/

/-- Every result of the computation is one that `Goes` or `Fails` describes, and nothing is
saved. -/
abbrev Steers (i : Instruction) (leap : Option Word) (reach : UInt8 → Nat) (x : Exec H Flow) :
    Prop :=
  Meets x
    (fun s flow t => Held s t ∧
      Machine.Goes H.KeepsSize i leap (reach s.machine.version) s.machine flow t.machine)
    (fun s t => Held s t ∧ Machine.Fails H.KeepsSize s.machine t.machine)

/-- Every result of the computation is calm, and says to go on behind the instruction or to stop. -/
abbrev Stays (x : Exec H Flow) : Prop :=
  Meets x (fun s flow t => Calm H.KeepsSize s t ∧ (flow = .next ∨ flow = .quit))
    (Calm H.KeepsSize)

section Steers

variable {i : Instruction} {leap : Option Word} {reach : UInt8 → Nat}

/-- **Quiet steps may come before what steers the session.** -/
theorem Steers.bind {x : Exec H α} {f : α → Exec H Flow} (hx : Keeps Quiet x)
    (hf : ∀ a, Steers i leap reach (f a)) : Steers i leap reach (x >>= f) :=
  Meets.bind hx hf
    (fun h h' => ⟨h.held.trans h'.1, (h.machine.version ▸ h'.2).after_steady h.machine⟩)
    (fun h h' => ⟨h.held.trans h'.1, h'.2.after_calm (.of_quiet h.machine.toCalm)⟩)
    (fun h => ⟨h.held, .of_calm (.of_quiet h.machine.toCalm)⟩)

/-- A computation that first makes a quiet change, and then does what steers the session. -/
theorem Steers.after {x : Exec H Flow}
    (h : ∀ s, ∃ q y, Quiet s q ∧ x s = y q ∧ Steers i leap reach y) : Steers i leap reach x where
  ok {s flow t} hx := by
    obtain ⟨q, y, hq, hy, hs⟩ := h s
    have h' := hs.ok (hy ▸ hx)
    exact ⟨hq.held.trans h'.1, (hq.machine.version ▸ h'.2).after_steady hq.machine⟩
  error {s e t} hx := by
    obtain ⟨q, y, hq, hy, hs⟩ := h s
    have h' := hs.error (hy ▸ hx)
    exact ⟨hq.held.trans h'.1, h'.2.after_calm (.of_quiet hq.machine.toCalm)⟩

theorem Stays.bind {x : Exec H α} {f : α → Exec H Flow} (hx : Keeps (Calm H.KeepsSize) x)
    (hf : ∀ a, Stays (f a)) : Stays (x >>= f) :=
  Meets.bind hx hf (fun h h' => ⟨h.trans h'.1, h'.2⟩) .trans id

theorem Steers.of_stays {x : Exec H Flow} (h : Stays x) : Steers i leap reach x where
  ok {s flow t} hx := by
    obtain ⟨hc, rfl | rfl⟩ := h.ok hx
    · exact ⟨hc.held, .next hc.machine.toCalm ((List.drop_suffix _ _).trans hc.machine.rest)⟩
    · exact ⟨hc.held, .quit hc.machine.toCalm ((List.drop_suffix _ _).trans hc.machine.rest)⟩
  error hx := ⟨(h.error hx).held, .of_calm (h.error hx).machine.toCalm⟩

theorem stays_next : Stays (pure .next : Exec H Flow) where
  ok h := by cases h; exact ⟨.refl _, .inl rfl⟩
  error h := by cases h

theorem stays_quit : Stays (pure .quit : Exec H Flow) where
  ok h := by cases h; exact ⟨.refl _, .inr rfl⟩
  error h := by cases h

theorem stays_deliver (j : Instruction) (value : Word) :
    Stays (onMachine (Machine.deliver j value) : Exec H Flow) where
  ok {s flow t} h := by
    obtain ⟨m, hm, rfl⟩ := onMachine_eq_ok.mp h
    obtain ⟨u, q, hs, hq⟩ := bind_eq_ok.mp hm
    cases hq
    exact ⟨⟨held_machine s m, .of_steady ((Machine.keeps_storeResult j.store value).ok hs)⟩, .inl rfl⟩
  error {s e t} h := by
    obtain ⟨m, hm, rfl⟩ := onMachine_eq_error.mp h
    rcases bind_eq_error.mp hm with hs | ⟨u, q, -, hq⟩
    · exact ⟨held_machine s m, .of_steady ((Machine.keeps_storeResult j.store value).error hs)⟩
    · cases hq

theorem steers_next : Steers i leap reach (pure .next : Exec H Flow) :=
  .of_stays stays_next

theorem steers_onMachine {x : Action Machine Flow} (h : Machine.Steers i leap reach x) :
    Steers i leap reach (onMachine x : Exec H Flow) where
  ok {s flow t} hx := by
    obtain ⟨m, hm, rfl⟩ := onMachine_eq_ok.mp hx
    exact ⟨held_machine s m, (h.ok hm).weaken⟩
  error {s e t} hx := by
    obtain ⟨m, hm, rfl⟩ := onMachine_eq_error.mp hx
    exact ⟨held_machine s m, (h.error hm).weaken⟩

end Steers

end Session

end ZMachine
