import ZMachine.Proofs.Session.Reading

/-!
# Line ends of the input

A text may come with a carriage return before each of its newlines. A story that reads it cannot
tell: lines are told without their returns, and either character has the code of a line end. There
is one exception. Where a line ends, a single character takes the return alone and leaves the
newline ahead, which without the return it would have taken.

* `withReturns`               : a text with a return before each newline.
* `Request.PassesLineEnds`    : no character is asked for at the end of a line, but by the last
  request.
* `Session.Twins`, `Parallel` : two results that differ in their inputs only; a computation that
  comes to such results.
* `Session.parallel_execute`  : one instruction that reads.
* `Session.returns_make_no_difference` : any row of them.
* `Session.keys_at_line_end`  : the exception.
-/

namespace ZMachine

open ZMachine.Action

/-! ## 1. Texts -/

/-- The text with a carriage return before each newline. -/
def withReturns : List Char → List Char
  | [] => []
  | c :: text => if c = '\n' then '\r' :: '\n' :: withReturns text else c :: withReturns text

theorem withReturns_eq_nil {text : List Char} : withReturns text = [] ↔ text = [] := by
  cases text with
  | nil => exact Iff.rfl
  | cons c text =>
      unfold withReturns
      split_ifs <;> simp

/-- A line with its newline ahead has a return at its end. -/
theorem takeWhile_withReturns (text : List Char) :
    (withReturns text).takeWhile (· != '\n') =
      text.takeWhile (· != '\n') ++ if '\n' ∈ text then ['\r'] else [] := by
  induction text with
  | nil => rfl
  | cons c text ih =>
      by_cases hc : c = '\n'
      · rw [hc]
        simp [withReturns]
      · simp [withReturns, hc, Ne.symm hc, ih]

/-- Which is not told. -/
theorem dropReturns_withReturns (text : List Char) :
    Input.dropReturns ((withReturns text).takeWhile (· != '\n')) =
      Input.dropReturns (text.takeWhile (· != '\n')) := by
  rw [takeWhile_withReturns]
  split_ifs with h
  · unfold Input.dropReturns
    rw [List.reverse_append]
    rfl
  · rw [List.append_nil]

/-- A line leaves the same of both. -/
theorem line_withReturns (text : List Char) :
    Request.rest .line (withReturns text) = withReturns (Request.rest .line text) := by
  show ((withReturns text).dropWhile (· != '\n')).drop 1 = withReturns ((text.dropWhile (· != '\n')).drop 1)
  induction text with
  | nil => rfl
  | cons c text ih =>
      by_cases hc : c = '\n'
      · rw [hc]
        rfl
      · simpa [withReturns, hc] using ih

/-- And so does a character where no line ends. -/
theorem char_withReturns {text : List Char} (h : text.head? ≠ some '\n') :
    Request.rest .char (withReturns text) = withReturns (Request.rest .char text) := by
  cases text with
  | nil => rfl
  | cons c text =>
      have hc : c ≠ '\n' := fun hc => h (congrArg some hc)
      show (withReturns (c :: text)).drop 1 = withReturns text
      rw [withReturns, if_neg hc]
      rfl

/-- A return has the code of a newline. -/
theorem head_withReturns (text : List Char) :
    (withReturns text).head?.map Zscii.ofChar = text.head?.map Zscii.ofChar := by
  cases text with
  | nil => rfl
  | cons c text =>
      unfold withReturns
      split_ifs with hc
      · rw [hc]
        rfl
      · rfl

/-- No character is asked for at the end of a line, unless nothing is asked for after it. -/
def Request.PassesLineEnds : List Request → List Char → Prop
  | [], _ => True
  | request :: requests, text =>
      (request = .char → text.head? = some '\n' → requests = []) ∧
        PassesLineEnds requests (request.rest text)

instance decidablePassesLineEnds :
    ∀ requests text, Decidable (Request.PassesLineEnds requests text)
  | [], _ => inferInstanceAs (Decidable True)
  | _ :: requests, _ =>
      have := decidablePassesLineEnds requests
      inferInstanceAs (Decidable (_ ∧ _))

/-- What an operation asks of the input. -/
def Operation.request? : Operation → Option Request
  | .sread | .aread => some .line
  | .readChar => some .char
  | _ => none

/-- In every version that knows the instruction, it makes the request. -/
def Instruction.Asks (i : Instruction) (request : Request) : Prop :=
  ∀ entry ∈ Operation.standard.entries, entry.opcode = i.opcode →
    entry.target.request? = some request

instance (i : Instruction) (request : Request) : Decidable (i.Asks request) :=
  inferInstanceAs (Decidable (∀ entry ∈ Operation.standard.entries, _))

namespace Session

variable {H : Host} {α β : Type} {P Q R : Input → Input → Prop}

/-! ## 2. Two inputs -/

/-- The session with another input. -/
def facing (s : Session H) (input : Input) : Session H :=
  { s with input }

@[simp] theorem facing_machine (s : Session H) (input : Input) :
    (s.facing input).machine = s.machine :=
  rfl

@[simp] theorem facing_sink (s : Session H) (input : Input) : (s.facing input).sink = s.sink :=
  rfl

@[simp] theorem facing_input (s : Session H) (input : Input) : (s.facing input).input = input :=
  rfl

/-- The same answer or the same fault, and the same session but for its input. After a success `Q`
relates the inputs. -/
inductive Twins (Q : Input → Input → Prop) :
    EStateM.Result Fault (Session H) α → EStateM.Result Fault (Session H) α → Prop where
  | ok (a : α) (s : Session H) {i j : Input} (h : Q i j) :
      Twins Q (.ok a (s.facing i)) (.ok a (s.facing j))
  | error (e : Fault) (s : Session H) (i j : Input) :
      Twins Q (.error e (s.facing i)) (.error e (s.facing j))

theorem Twins.mono {r r' : EStateM.Result Fault (Session H) α} (h : Twins Q r r')
    (hQ : ∀ {i j}, Q i j → R i j) : Twins R r r' := by
  cases h with
  | ok a s h => exact .ok a s (hQ h)
  | error e s i j => exact .error e s i j

/-- Facing inputs that `P` relates, the computation comes to results that are alike. -/
def Parallel (P Q : Input → Input → Prop) (x : Exec H α) : Prop :=
  ∀ (s : Session H) (i j : Input), P i j → Twins Q (x (s.facing i)) (x (s.facing j))

theorem Parallel.bind {x : Exec H α} {f : α → Exec H β} (hx : Parallel P Q x)
    (hf : ∀ a, Parallel Q R (f a)) : Parallel P R (x >>= f) := by
  intro s i j h
  have hr := hx s i j h
  rw [bind_run, bind_run]
  revert hr
  generalize x (s.facing i) = r, x (s.facing j) = r'
  intro hr
  cases hr with
  | ok a t h' => exact hf a t _ _ h'
  | error e t i' j' => exact .error e t i' j'

theorem Parallel.weaken {x : Exec H α} (hx : Parallel P Q x) (h : ∀ {i j}, Q i j → R i j) :
    Parallel P R x :=
  fun s i j hij => (hx s i j hij).mono h

theorem parallel_pure (a : α) : Parallel P P (pure a : Exec H α) :=
  fun s _ _ h => .ok a s h

theorem parallel_throw (e : Fault) : Parallel P Q (throw e : Exec H α) :=
  fun s i j _ => .error e s i j

theorem parallel_lift (x : Except Fault α) : Parallel P P (liftM x : Exec H α) := by
  cases x with
  | ok a => exact parallel_pure a
  | error e => exact parallel_throw e

/-- What is looked up is not the input. -/
theorem parallel_get {f : Session H → Exec H α} (hf : ∀ s, Parallel P Q (f s))
    (h : ∀ s input, f (s.facing input) = f s) : Parallel P Q (get >>= f) := by
  intro s i j hij
  show Twins Q (f (s.facing i) (s.facing i)) (f (s.facing j) (s.facing j))
  rw [h, h]
  exact hf s s i j hij

theorem Parallel.ite {c : Prop} [Decidable c] {x y : Exec H α} (hx : Parallel P Q x)
    (hy : Parallel P Q y) : Parallel P Q (if c then x else y) := by
  by_cases h : c
  · rw [if_pos h]; exact hx
  · rw [if_neg h]; exact hy

/-- The result of a session with another input. -/
def turned (input : Input) :
    EStateM.Result Fault (Session H) α → EStateM.Result Fault (Session H) α
  | .ok a s => .ok a (s.facing input)
  | .error e s => .error e (s.facing input)

/-- Twins are the same once they have the same input. -/
theorem Twins.turned_eq {r r' : EStateM.Result Fault (Session H) α} (h : Twins Q r r')
    (input : Input) : turned input r = turned input r' := by
  cases h <;> rfl

/-- A computation that has nothing to do with the input leaves each session its own. -/
theorem parallel_of_turned {x : Exec H α}
    (h : ∀ s input, x (s.facing input) = turned input (x s)) : Parallel P P x := by
  intro s i j hij
  rw [h, h]
  cases x s with
  | ok a t => exact .ok a t hij
  | error e t => exact .error e t i j

/-! ## 3. What has nothing to do with the input -/

theorem parallel_onMachine (action : Action Machine α) :
    Parallel P P (onMachine action : Exec H α) := by
  refine parallel_of_turned fun s input => ?_
  unfold onMachine
  rw [facing_machine]
  cases action s.machine <;> rfl

theorem parallel_onSink (action : Action Sink α) : Parallel P P (onSink action : Exec H α) := by
  refine parallel_of_turned fun s input => ?_
  unfold onSink
  rw [facing_sink]
  cases action s.sink <;> rfl

theorem parallel_onScreen (change : Screen → Screen) :
    Parallel P P (onScreen change : Exec H Unit) :=
  parallel_of_turned fun _ _ => rfl

theorem parallel_memory : Parallel P P (memory : Exec H Memory) :=
  parallel_get (fun _ => parallel_pure _) fun _ _ => rfl

theorem parallel_onLexer (action : Action (H.Lexer × Memory) α) :
    Parallel P P (onLexer action : Exec H α) := by
  have hlexer : Parallel P P (theLexer : Exec H H.Lexer) := by
    refine parallel_get (fun s => ?_) fun _ _ => rfl
    cases s.lexer with
    | none => exact parallel_throw _
    | some lexer => exact parallel_pure lexer
  refine hlexer.bind fun lexer => parallel_of_turned fun s input => ?_
  rw [facing_machine]
  cases action (lexer, s.machine.memory) <;> rfl

theorem parallel_tokenise (request : TokenRequest) :
    Parallel P P (tokenise request : Exec H Unit) :=
  Parallel.ite (parallel_pure ()) (parallel_onLexer _)

theorem parallel_decodeText (addr : Nat) : Parallel P P (decodeText addr : Exec H String) := by
  refine parallel_get (fun s => ?_) fun _ _ => rfl
  exact (parallel_lift _).bind fun _ => parallel_pure _

theorem parallel_refreshStatusLine : Parallel P P (Handler.refreshStatusLine : Exec H Unit) := by
  have hname : Parallel P P (Handler.locationName : Exec H String) := by
    refine (parallel_onMachine _).bind fun location => ?_
    refine parallel_get (fun s => ?_) fun _ _ => rfl
    cases s.objects with
    | none => exact parallel_pure _
    | some objects =>
        refine Parallel.ite (parallel_pure _) ?_
        exact (parallel_lift _).bind fun addr => parallel_decodeText addr
  refine hname.bind fun location => ?_
  refine (parallel_onMachine _).bind fun left => ?_
  refine (parallel_onMachine _).bind fun right => ?_
  refine parallel_memory.bind fun memory => ?_
  exact (parallel_lift _).bind fun flags => parallel_onScreen _

/-! ## 4. What reads -/

/-- One input has the text ahead and the other the same text with returns. -/
def SameText (text : List Char) (i j : Input) : Prop :=
  i.Ahead text ∧ j.Ahead (withReturns text)

/-- What is left after a request is the same text, unless a character was asked for at the end of a
line. -/
def SameRest (request : Request) (text : List Char) (i j : Input) : Prop :=
  (request = .char → text.head? ≠ some '\n') → SameText (request.rest text) i j

theorem parallel_onInput {action : Action Input α}
    (h : ∀ i j, P i j → ∃ a i' j', action i = .ok a i' ∧ action j = .ok a j' ∧ Q i' j') :
    Parallel P Q (onInput action : Exec H α) := by
  intro s i j hij
  obtain ⟨a, i', j', hi, hj, hq⟩ := h i j hij
  unfold onInput
  rw [facing_input, facing_input, hi, hj]
  exact .ok a s hq

variable {text : List Char}

/-- A line is the same from both, and leaves the same. -/
theorem parallel_readLine :
    Parallel (SameText text) (SameRest .line text) (readLine : Exec H (Option (List Char))) := by
  refine (parallel_onSink _).bind fun _ => parallel_onInput fun i j h => ?_
  obtain ⟨i', hi, hi'⟩ := Input.readLine_of_ahead h.1
  obtain ⟨j', hj, hj'⟩ := Input.readLine_of_ahead h.2
  refine ⟨_, i', j', hi, ?_, fun _ => ⟨hi', ?_⟩⟩
  · rw [hj]
    simp only [withReturns_eq_nil, dropReturns_withReturns]
  · exact line_withReturns text ▸ hj'

/-- The code of a character is the same from both. -/
theorem parallel_readCode :
    Parallel (SameText text) (SameRest .char text)
      (Option.map Zscii.ofChar <$> readChar : Exec H (Option Word)) := by
  unfold readChar
  rw [map_bind]
  refine (parallel_onSink _).bind fun _ => ?_
  rw [funext (map_onInput _ _)]
  refine parallel_onInput fun i j h => ?_
  obtain ⟨i', hi, hi'⟩ := Input.readChar_of_ahead h.1
  obtain ⟨j', hj, hj'⟩ := Input.readChar_of_ahead h.2
  refine ⟨_, i', j', bind_of_ok hi, ?_, fun hc => ⟨hi', ?_⟩⟩
  · exact (bind_of_ok hj).trans (congrArg (EStateM.Result.ok · j') (head_withReturns text))
  · exact char_withReturns (hc rfl) ▸ hj'

theorem parallel_readCodes (small : List Char → List Char) (capacity : Nat) :
    Parallel (SameText text) (SameRest .line text)
      (readCodes small capacity : Exec H (Option (List UInt8))) := by
  refine parallel_readLine.bind fun line => ?_
  cases line with
  | none => exact parallel_pure _
  | some line => exact parallel_pure _

variable {i : Instruction} {args : List Word} {small : List Char → List Char}

theorem parallel_sread :
    Parallel (SameText text) (SameRest .line text) (Handler.sread small i args : Exec H Flow) := by
  refine (parallel_onMachine _).bind fun buffer => ?_
  refine parallel_get (fun s => ?_) fun _ _ => rfl
  refine Parallel.ite (parallel_refreshStatusLine.bind fun _ => ?_) ?_
  all_goals
    refine parallel_memory.bind fun memory => ?_
    refine (parallel_lift _).bind fun size => ?_
    refine (parallel_readCodes _ _).bind fun codes => ?_
    cases codes with
    | none => exact parallel_pure _
    | some codes =>
        refine (parallel_onMachine _).bind fun _ => ?_
        refine (parallel_onMachine _).bind fun _ => ?_
        exact (parallel_tokenise _).bind fun _ => parallel_pure _

theorem parallel_aread :
    Parallel (SameText text) (SameRest .line text) (Handler.aread small i args : Exec H Flow) := by
  refine (parallel_onMachine _).bind fun buffer => ?_
  refine parallel_memory.bind fun memory => ?_
  refine (parallel_lift _).bind fun size => ?_
  refine (parallel_readCodes _ _).bind fun codes => ?_
  cases codes with
  | none => exact parallel_pure _
  | some codes =>
      refine (parallel_onMachine _).bind fun _ => ?_
      refine (parallel_onMachine _).bind fun _ => ?_
      exact (parallel_tokenise _).bind fun _ => parallel_onMachine _

theorem parallel_readCharacter :
    Parallel (SameText text) (SameRest .char text) (Handler.readCharacter i args : Exec H Flow) := by
  -- Only the code of the character is made use of.
  have hcode : (Handler.readCharacter i args : Exec H Flow) =
      (Option.map Zscii.ofChar <$> readChar) >>= fun code =>
        match code with
        | none => return .quit
        | some code => onMachine (Machine.deliver i code) := by
    rw [bind_map_left]
    refine bind_congr fun c => ?_
    cases c <;> rfl
  rw [hcode]
  refine parallel_readCode.bind fun code => ?_
  cases code with
  | none => exact parallel_pure _
  | some code => exact parallel_onMachine _

/-- An operation that asks for something gets the same from both, and leaves the same. -/
theorem parallel_perform {op : Operation} {request : Request} (h : op.request? = some request) :
    Parallel (SameText text) (SameRest request text) (op.perform i args : Exec H Flow) := by
  unfold Operation.request? at h
  split at h
  all_goals cases h
  · exact parallel_sread
  · exact parallel_aread
  · exact (parallel_readCharacter : Parallel _ _ (Handler.readCharacter i args))

/-- **An instruction that reads** does the same with both. -/
theorem parallel_execute {request : Request} (h : i.Asks request) :
    Parallel (SameText text) (SameRest request text) (execute i : Exec H Flow) := by
  refine parallel_get (fun s => ?_) fun _ _ => rfl
  cases hop : Operation.standard.lookup i.opcode s.machine.version with
  | none => exact parallel_throw _
  | some op =>
      obtain ⟨entry, hmem, hcode, rfl, -⟩ := DispatchTable.lookup_eq_some hop
      exact (parallel_onMachine _).bind fun args => parallel_perform (h entry hmem hcode)

/-! ## 5. Runs -/

/-- Executes one instruction after the other, until one of them stops the story. -/
def executeAll : List Instruction → Exec H (List Flow)
  | [] => return []
  | i :: rest => do
      let flow ← execute i
      if flow = .quit then
        return [flow]
      else
        let flows ← executeAll rest
        return flow :: flows

theorem parallel_executeAll {instructions : List Instruction} {requests : List Request}
    (h : List.Forall₂ Instruction.Asks instructions requests)
    (hp : Request.PassesLineEnds requests text) :
    Parallel (SameText text) (fun _ _ => True) (executeAll instructions : Exec H (List Flow)) := by
  induction h generalizing text with
  | nil => exact (parallel_pure []).weaken fun _ => trivial
  | @cons i request instructions requests hi h ih =>
      obtain ⟨hchar, hp⟩ := hp
      refine (parallel_execute hi).bind fun flow => ?_
      refine Parallel.ite ((parallel_pure _).weaken fun _ => trivial) ?_
      refine Parallel.bind ?_ fun flows => parallel_pure _
      -- What is left may differ only if nothing is asked for any more.
      by_cases hend : request = .char ∧ text.head? = some '\n'
      · cases hchar hend.1 hend.2
        cases h
        exact (parallel_pure []).weaken fun _ => trivial
      · intro s i j hij
        exact ih hp s i j (hij fun hr ht => hend ⟨hr, ht⟩)

/-- **Returns before newlines make no difference** to a row of instructions that read, if none but
the last asks for a character at the end of a line: they report the same flows or the same fault,
and leave the same session but for its input. -/
theorem returns_make_no_difference (text : String) (s : Session H)
    {instructions : List Instruction} {requests : List Request}
    (h : List.Forall₂ Instruction.Asks instructions requests)
    (hp : Request.PassesLineEnds requests text.toList) (input : Input) :
    turned input (executeAll instructions
        (s.facing (.ofBytes text.toUTF8.data.toList))) =
      turned input (executeAll instructions
        (s.facing (.ofBytes (String.ofList (withReturns text.toList)).toUTF8.data.toList))) := by
  have hplain := Input.ahead_ofBytes text
  have hreturns := Input.ahead_ofBytes (String.ofList (withReturns text.toList))
  rw [String.toList_ofList] at hreturns
  exact (parallel_executeAll h hp s _ _ ⟨hplain, hreturns⟩).turned_eq input

/-- A story in version 5 with a text buffer for six characters. -/
def asking : Array UInt8 :=
  #[5, 0, 0, 0, 0, 0, 0, 0x48, 0, 0, 0, 0, 0, 0, 0, 0x48,
    0, 0, 0, 0, 0, 0, 0, 0, 0, 0, 0, 0, 0, 0, 0, 0,
    0, 0, 0, 0, 0, 0, 0, 0, 0, 0, 0, 0, 0, 0, 0, 0,
    0, 0, 0, 0, 0, 0, 0, 0, 0, 0, 0, 0, 0, 0, 0, 0,
    6, 0, 0, 0, 0, 0, 0, 0]

/-- Reads a line into the buffer and leaves the code of its end on the stack. -/
def lineAsked : Instruction :=
  { opcode := ⟨.var, 0x04⟩
    form := .variable
    operands := [⟨.small, 0x40⟩, ⟨.small, 0⟩]
    store := some 0
    branch := none
    textAddr := none
    size := 5 }

/-- Reads a character and leaves its code on the stack. -/
def keyAsked : Instruction :=
  { opcode := ⟨.var, 0x16⟩
    form := .variable
    operands := [⟨.small, 1⟩]
    store := some 0
    branch := none
    textAddr := none
    size := 4 }

/-- The flows that are reported, with the contents of the buffer and the stack in the end. -/
def received (text : String) (instructions : List Instruction) :
    Option (List Flow × List UInt8 × List Word) :=
  match executeAll instructions ((started asking {}).facing (.ofBytes text.toUTF8.data.toList)) with
  | .ok flows s =>
      some (flows, s.machine.memory.bytes.toList.drop 0x41, s.machine.stack)
  | .error _ _ => none

/-- A character, the rest of its line, another line, and a character at the end of an empty one. -/
theorem asking_alike :
    List.Forall₂ Instruction.Asks [keyAsked, lineAsked, lineAsked, keyAsked]
        [.char, .line, .line, .char] ∧
      Request.PassesLineEnds [.char, .line, .line, .char] "ab\nC\n\nx".toList ∧
      received "ab\nC\n\nx" [keyAsked, lineAsked, lineAsked, keyAsked] =
        some ([.next, .next, .next, .next], [1, 99, 0, 0, 0, 0, 0], [13, 13, 13, 97]) ∧
      ∀ input, turned input (executeAll [keyAsked, lineAsked, lineAsked, keyAsked]
          ((started asking {}).facing (.ofBytes "ab\nC\n\nx".toUTF8.data.toList))) =
        turned input (executeAll [keyAsked, lineAsked, lineAsked, keyAsked]
          ((started asking {}).facing (.ofBytes
            (String.ofList (withReturns "ab\nC\n\nx".toList)).toUTF8.data.toList))) := by
  have hasks : List.Forall₂ Instruction.Asks [keyAsked, lineAsked, lineAsked, keyAsked]
      [.char, .line, .line, .char] := by decide +kernel
  have hpasses : Request.PassesLineEnds [.char, .line, .line, .char] "ab\nC\n\nx".toList := by
    decide +kernel
  exact ⟨hasks, hpasses, by decide +kernel, returns_make_no_difference _ _ hasks hpasses⟩

/-- **At the end of a line one character is not enough**: of two that are asked for, the second
meets the end of the text without a return, and another line end with it. -/
theorem keys_at_line_end :
    '\r' ∉ "\n".toList ∧
      List.Forall₂ Instruction.Asks [keyAsked, keyAsked] [.char, .char] ∧
      String.ofList (withReturns "\n".toList) = "\r\n" ∧
      received "\n" [keyAsked, keyAsked] = some ([.next, .quit], [0, 0, 0, 0, 0, 0, 0], [13]) ∧
      received "\r\n" [keyAsked, keyAsked] =
        some ([.next, .next], [0, 0, 0, 0, 0, 0, 0], [13, 13]) := by
  decide +kernel

end Session

end ZMachine
