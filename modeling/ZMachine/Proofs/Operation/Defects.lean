import ZMachine.Proofs.Machine.Defects
import ZMachine.Proofs.Session.Calm
import ZMachine.Session.Run

/-!
# No operation meets a defect

One lemma for each instruction, in the order of the modules that define them. Almost all of them
meet no defect from any start. The exceptions decode text, which goes by the first byte of memory as
it is then: they do so before they change anything, so the first byte at their start counts.

* `Host.Careful`             : a host whose helpers meet no defect.
* `Session.Legible`          : sessions whose text can be decoded.
* `Operation.cleanAt_perform` : the table of all operations.
-/

namespace ZMachine

open ZMachine.Action

/-! ## 1. Instructions on the machine alone -/

namespace Arithmetic

theorem clean_quotient (a b : Word) : Clean (quotient a b) :=
  .ite (fun _ => clean_error nofun) fun _ => clean_ok _

theorem clean_remainder (a b : Word) : Clean (remainder a b) :=
  .ite (fun _ => clean_error nofun) fun _ => clean_ok _

end Arithmetic

namespace Table

theorem clean_entry (m : Memory) (words : Bool) (addr : Nat) : Clean (entry m words addr) :=
  .ite (fun _ => m.clean_readWord addr) fun _ => (m.clean_readByte addr).map _

theorem clean_find (m : Memory) (target : Word) (words : Bool) (stride : Nat) :
    ∀ count addr : Nat, Clean (find m target words stride count addr)
  | 0, _ => clean_ok _
  | count + 1, addr => by
      refine (clean_entry m words addr).bind fun value _ => ?_
      exact .ite (fun _ => clean_ok _) fun _ => clean_find m target words stride count _

theorem careful_copyForward : ∀ count source dest : Nat, Careful (copyForward count source dest)
  | 0, _, _ => careful_pure _
  | count + 1, source, dest => by
      refine careful_get.bind fun m => ?_
      refine (careful_lift (m.memory.clean_readByte source)).bind fun b => ?_
      refine (Machine.careful_writeByte dest b).bind fun _ => ?_
      exact careful_copyForward count (source + 1) (dest + 1)

theorem careful_copy (source dest : Nat) (size : Int) : Careful (copy source dest size) := by
  refine .ite (fun _ => Machine.careful_writeSlice _ _) fun _ => ?_
  refine .ite (fun _ => careful_copyForward _ _ _) fun _ => ?_
  refine careful_get.bind fun m => ?_
  exact (careful_lift (m.memory.clean_slice _ _)).bind fun _ => Machine.careful_writeSlice _ _

end Table

namespace Handler

open Machine

variable {i : Instruction} {args : List Word}

theorem careful_binary {f : Word → Word → Except Fault Word} (h : ∀ a b, Clean (f a b)) :
    Careful (binary f i args) := by
  refine (careful_operand i args 0).bind fun a => ?_
  refine (careful_operand i args 1).bind fun b => ?_
  exact (careful_lift (h a b)).bind fun result => careful_deliver i result

theorem careful_bitNot : Careful (bitNot i args) :=
  (careful_operand i args 0).bind fun _ => careful_deliver i _

theorem careful_je : Careful (je i args) := by
  refine careful_operand_bind i args fun a rest ha => ?_
  subst ha
  refine (careful_operand i _ 1).bind fun _ => ?_
  exact (careful_pure rest).bind fun _ => careful_branch _ _

theorem careful_compare (test : Word → Word → Bool) : Careful (compare test i args) := by
  refine (careful_operand i args 0).bind fun a => ?_
  exact (careful_operand i args 1).bind fun b => careful_branch _ _

theorem careful_change (f : Word → Word) (var : Word) : Careful (change f var) := by
  refine (careful_loadIndirect var).bind fun value => ?_
  exact (careful_storeIndirect var _).bind fun _ => careful_pure _

theorem careful_changeAndCompare (f : Word → Word) (test : Word → Word → Bool) :
    Careful (changeAndCompare f test i args) := by
  refine (careful_operand i args 0).bind fun var => ?_
  refine (careful_operand i args 1).bind fun limit => ?_
  exact (careful_change f var).bind fun _ => careful_branch _ _

theorem careful_jz : Careful (jz i args) :=
  (careful_operand i args 0).bind fun _ => careful_branch _ _

theorem careful_jumpBy : Careful (jumpBy i args) := by
  refine (careful_operand i args 0).bind fun offset => ?_
  exact (careful_jump _).bind fun _ => careful_pure _

theorem careful_changeVar (f : Word → Word) : Careful (changeVar f i args) := by
  refine (careful_operand i args 0).bind fun var => ?_
  exact (careful_change f var).bind fun _ => careful_pure _

theorem careful_load : Careful (load i args) := by
  refine (careful_operand i args 0).bind fun var => ?_
  exact (careful_loadIndirect var).bind fun value => careful_deliver i value

theorem careful_store : Careful (store i args) := by
  refine (careful_operand i args 0).bind fun var => ?_
  refine (careful_operand i args 1).bind fun value => ?_
  exact (careful_storeIndirect var value).bind fun _ => careful_pure _

theorem careful_loadw : Careful (loadw i args) := by
  refine (careful_operand i args 0).bind fun array => ?_
  refine (careful_operand i args 1).bind fun index => ?_
  refine careful_get.bind fun m => ?_
  exact (careful_lift (m.memory.clean_readWord _)).bind fun value => careful_deliver i value

theorem careful_loadb : Careful (loadb i args) := by
  refine (careful_operand i args 0).bind fun array => ?_
  refine (careful_operand i args 1).bind fun index => ?_
  refine careful_get.bind fun m => ?_
  exact (careful_lift (m.memory.clean_readByte _)).bind fun value => careful_deliver i _

theorem careful_storew : Careful (storew i args) := by
  refine (careful_operand i args 0).bind fun array => ?_
  refine (careful_operand i args 1).bind fun index => ?_
  refine (careful_operand i args 2).bind fun value => ?_
  exact (careful_writeWord _ value).bind fun _ => careful_pure _

theorem careful_storeb : Careful (storeb i args) := by
  refine (careful_operand i args 0).bind fun array => ?_
  refine (careful_operand i args 1).bind fun index => ?_
  refine (careful_operand i args 2).bind fun value => ?_
  exact (careful_writeByte _ _).bind fun _ => careful_pure _

theorem careful_scanTable : Careful (scanTable i args) := by
  refine (careful_operand i args 0).bind fun target => ?_
  refine (careful_operand i args 1).bind fun table => ?_
  refine (careful_operand i args 2).bind fun count => ?_
  refine careful_get.bind fun m => ?_
  refine (careful_lift (Table.clean_find m.memory _ _ _ _ _)).bind fun found => ?_
  exact (careful_storeResult i.store _).bind fun _ => careful_branch _ _

theorem careful_copyTable : Careful (copyTable i args) := by
  refine (careful_operand i args 0).bind fun source => ?_
  refine (careful_operand i args 1).bind fun dest => ?_
  refine (careful_operand i args 2).bind fun size => ?_
  exact (Table.careful_copy _ _ _).bind fun _ => careful_pure _

theorem careful_callRoutine : Careful (callRoutine i args) := by
  refine careful_operand_bind i args fun routine rest ha => ?_
  subst ha
  exact (careful_pure rest).bind fun arguments => careful_call routine arguments i.store

theorem careful_retValue : Careful (retValue i args) :=
  (careful_operand i args 0).bind fun value => careful_ret value

theorem careful_retPopped : Careful (retPopped i args) :=
  careful_pop.bind fun value => careful_ret value

theorem careful_dropTop : Careful (dropTop i args) :=
  careful_pop.bind fun _ => careful_pure _

theorem careful_catchFrame : Careful (catchFrame i args) :=
  careful_get.bind fun _ => careful_deliver i _

theorem careful_throwTo : Careful (throwTo i args) := by
  refine (careful_operand i args 0).bind fun value => ?_
  refine (careful_operand i args 1).bind fun number => ?_
  refine careful_get.bind fun m => ?_
  refine .ite (fun _ => careful_throw nofun) fun _ => ?_
  exact (careful_set _).bind fun _ => careful_ret value

theorem careful_pushValue : Careful (pushValue i args) := by
  refine (careful_operand i args 0).bind fun value => ?_
  exact (careful_push value).bind fun _ => careful_pure _

theorem careful_popUserStack (table : Nat) : Careful (popUserStack table) := by
  refine careful_get.bind fun m => ?_
  refine (careful_lift (m.memory.clean_readWord table)).bind fun free => ?_
  refine (careful_lift (m.memory.clean_readWord _)).bind fun value => ?_
  exact (careful_writeWord table _).bind fun _ => careful_pure _

theorem careful_pull : Careful (pull i args) := by
  refine careful_get.bind fun m => ?_
  refine .ite (fun _ => ?_) fun _ => ?_
  · cases args with
    | nil => exact careful_pop.bind fun value => careful_deliver i value
    | cons table rest =>
        exact (careful_popUserStack table.toNat).bind fun value => careful_deliver i value
  · refine (careful_operand i args 0).bind fun var => ?_
    refine careful_pop.bind fun value => ?_
    exact (careful_storeIndirect var value).bind fun _ => careful_pure _

theorem careful_checkArgCount : Careful (checkArgCount i args) := by
  refine (careful_operand i args 0).bind fun count => ?_
  exact careful_currentFrame.bind fun _ => careful_branch _ _

end Handler

/-! ## 2. Hosts -/

/-- The host's helpers meet no defect. -/
structure Host.Careful (H : Host) : Prop where
  parent : ∀ objects memory object, Clean (H.objectModel.parent objects memory object)
  sibling : ∀ objects memory object, Clean (H.objectModel.sibling objects memory object)
  child : ∀ objects memory object, Clean (H.objectModel.child objects memory object)
  testAttribute : ∀ objects memory object number,
    Clean (H.objectModel.testAttribute objects memory object number)
  setAttribute : ∀ object number, Action.Careful (H.objectModel.setAttribute object number)
  clearAttribute : ∀ object number, Action.Careful (H.objectModel.clearAttribute object number)
  insert : ∀ object dest, Action.Careful (H.objectModel.insert object dest)
  remove : ∀ object, Action.Careful (H.objectModel.remove object)
  property : ∀ objects memory object number,
    Clean (H.objectModel.property objects memory object number)
  putProperty : ∀ object number value,
    Action.Careful (H.objectModel.putProperty object number value)
  propertyAddress : ∀ objects memory object number,
    Clean (H.objectModel.propertyAddress objects memory object number)
  nextProperty : ∀ objects memory object number,
    Clean (H.objectModel.nextProperty objects memory object number)
  propertyLength : ∀ objects memory addr, Clean (H.objectModel.propertyLength objects memory addr)
  nameAddress : ∀ objects memory object, Clean (H.objectModel.nameAddress objects memory object)
  tokenise : ∀ request, Action.Careful (H.tokenizer.tokenise request)

theorem WordCounter.clean_zeroFrom (m : Memory) (addr : Nat) : Clean (zeroFrom m addr) := by
  fun_induction zeroFrom m addr with
  | case1 addr e h => exact clean_error fun site he => m.clean_readByte addr site (he ▸ h)
  | case2 => exact clean_ok _
  | case3 _ _ _ _ ih => exact ih

theorem WordCounter.clean_count (m : Memory) (request : TokenRequest) :
    Clean (count m request) := by
  have hrange : Clean (textRange m request.textBuffer) := by
    refine (m.clean_readByte 0).bind fun version _ => ?_
    refine .ite (fun _ => ?_) fun _ => (m.clean_readByte _).map _
    exact (clean_zeroFrom m _).map _
  refine hrange.bind fun range _ => ?_
  refine (m.clean_slice _ _).bind fun text _ => ?_
  exact (m.clean_check _ 1).bind fun _ _ => clean_ok _

/-- The helpers of this library meet no defect. -/
theorem Host.standard_careful : Host.standard.Careful where
  parent _ _ _ := clean_ok _
  sibling _ _ _ := clean_ok _
  child _ _ _ := clean_ok _
  testAttribute _ _ _ _ := clean_ok _
  setAttribute _ _ := careful_modify _
  clearAttribute _ _ := careful_modify _
  insert _ _ := careful_modify _
  remove _ := careful_modify _
  property _ _ _ _ := clean_ok _
  putProperty object number value := by
    refine careful_get.bind fun s => ?_
    refine (careful_lift ?_).bind fun _ => careful_set _
    unfold ObjectForest.putProperty
    split
    · exact clean_ok _
    · exact clean_error nofun
  propertyAddress _ _ _ _ := clean_ok _
  nextProperty _ _ _ _ := clean_ok _
  propertyLength _ _ _ := clean_ok _
  nameAddress forest _ object := by
    show Clean (forest.nameAddress object)
    unfold ObjectForest.nameAddress
    split
    · exact clean_ok _
    · exact clean_error nofun
  tokenise request := by
    refine careful_get.bind fun s => ?_
    obtain ⟨lexer, memory⟩ := s
    cases lexer with
    | withoutDictionary => exact careful_throw nofun
    | counting requests =>
        refine (careful_set _).bind fun _ => ?_
        exact (careful_lift (WordCounter.clean_count memory request)).bind fun _ => careful_set _

/-! ## 3. Parts of a session -/

namespace Session

variable {H : Host} {α : Type}

theorem careful_onMachine {x : Action Machine α} (h : Careful x) :
    Careful (onMachine x : Exec H α) := by
  intro s site t hs
  obtain ⟨m, hm, -⟩ := onMachine_eq_error.mp hs
  exact h s.machine site m hm

theorem reads_onMachine {x : Action Machine α} (h : Keeps Eq x) :
    Keeps Eq (onMachine x : Exec H α) where
  ok {s a t} hx := by
    obtain ⟨m, hm, rfl⟩ := onMachine_eq_ok.mp hx
    rw [← h.ok hm]
  error {s e t} hx := by
    obtain ⟨m, hm, rfl⟩ := onMachine_eq_error.mp hx
    rw [← h.error hm]

theorem careful_onInput {x : Action Input α} (h : Careful x) : Careful (onInput x : Exec H α) := by
  intro s site t hs
  unfold onInput at hs
  split at hs
  · cases hs
  · rename_i hx
    cases hs
    exact h _ _ _ hx

theorem careful_onSink {x : Action Sink α} (h : Careful x) : Careful (onSink x : Exec H α) := by
  intro s site t hs
  unfold onSink at hs
  split at hs
  · cases hs
  · rename_i hx
    cases hs
    exact h _ _ _ hx

theorem careful_theObjects : Careful (theObjects : Exec H H.Objects) := by
  refine careful_get.bind fun s => ?_
  split
  · exact careful_pure _
  · exact careful_throw nofun

theorem careful_askObjects {question : H.Objects → Memory → Except Fault α}
    (h : ∀ objects memory, Clean (question objects memory)) :
    Careful (askObjects question : Exec H α) := by
  refine careful_theObjects.bind fun objects => ?_
  exact careful_get.bind fun s => careful_lift (h objects _)

theorem reads_askObjects (question : H.Objects → Memory → Except Fault α) :
    Keeps Eq (askObjects question : Exec H α) := by
  have hobjects : Keeps Eq (theObjects : Exec H H.Objects) := by
    refine Keeps.bind keeps_get fun s => ?_
    split
    · exact keeps_pure _
    · exact keeps_throw _
  refine Keeps.bind hobjects fun objects => ?_
  exact Keeps.bind keeps_get fun _ => keeps_lift _

theorem careful_onObjects {action : Action (H.Objects × Memory) α} (h : Careful action) :
    Careful (onObjects action : Exec H α) := by
  refine careful_theObjects.bind fun objects s site t hs => ?_
  split at hs
  · cases hs
  · rename_i hx
    cases hs
    exact h _ _ _ hx

theorem careful_theLexer : Careful (theLexer : Exec H H.Lexer) := by
  refine careful_get.bind fun s => ?_
  split
  · exact careful_pure _
  · exact careful_throw nofun

theorem careful_onLexer {action : Action (H.Lexer × Memory) α} (h : Careful action) :
    Careful (onLexer action : Exec H α) := by
  refine careful_theLexer.bind fun lexer s site t hs => ?_
  split at hs
  · cases hs
  · rename_i hx
    cases hs
    exact h _ _ _ hx

theorem careful_onScreen (change : Screen → Screen) : Careful (onScreen change : Exec H Unit) :=
  careful_modify _

theorem careful_memory : Careful (memory : Exec H Memory) :=
  careful_get.bind fun _ => careful_pure _

/-- The text of the session's memory can be decoded: the first byte is at most 8, and the decoder is
the one of this library, or another one that meets no defect. -/
structure Legible (s : Session H) : Prop where
  first : ∀ b, Header.version s.machine.memory = .ok b → b ≤ 8
  decoder : s.decoder = ZString.decode ∨ ∀ memory addr, Clean (s.decoder memory addr)

theorem cleanAt_decodeText {s : Session H} (hs : s.Legible) (addr : Nat) :
    CleanAt s (decodeText addr) := by
  have hd : Clean (s.decoder s.machine.memory addr) := by
    rcases hs.decoder with hd | hd
    · rw [hd]
      exact ZString.clean_decode hs.first addr
    · exact hd _ _
  exact (careful_lift hd).bind (fun _ => careful_pure _) s

/-! ## 4. Output and input -/

theorem careful_captureChar (c : Char) : Careful (captureChar c : Exec H Unit) := by
  refine careful_get.bind fun s => ?_
  split
  · exact careful_pure _
  · exact (careful_onMachine (Machine.careful_writeByte _ _)).bind fun _ => careful_modify _

theorem careful_captureChars : ∀ text : List Char, Careful (captureChars text : Exec H Unit)
  | [] => careful_pure _
  | c :: rest => (careful_captureChar c).bind fun _ => careful_captureChars rest

theorem careful_writeOutput (text : String) : Careful (writeOutput text : Exec H Unit) := by
  have hwrite : Careful (Sink.write text) := by
    refine careful_get.bind fun sink => (careful_modify _).bind fun _ => ?_
    exact .ite (fun _ => careful_throw nofun) fun _ => careful_pure _
  refine careful_get.bind fun s => ?_
  refine .ite (fun _ => ?_) fun _ => careful_captureChars _
  exact .ite (fun _ => careful_onSink hwrite) fun _ => careful_pure _

theorem careful_openTable (addr : Nat) : Careful (openTable addr : Exec H Unit) := by
  refine careful_memory.bind fun m => ?_
  exact (careful_lift (m.clean_readWord addr)).bind fun _ => careful_modify _

theorem careful_closeTable : Careful (closeTable : Exec H Unit) := by
  refine careful_get.bind fun s => ?_
  split
  · exact careful_pure _
  · exact (careful_modify _).bind fun _ => careful_onMachine (Machine.careful_writeWord _ _)

theorem careful_flush : Careful (flush : Exec H Unit) :=
  careful_onSink (careful_get.bind fun _ => .ite (fun _ => careful_throw nofun) fun _ => careful_pure _)

theorem careful_fetch : Careful Input.fetch := by
  refine careful_get.bind fun input => ?_
  split
  · exact careful_pure _
  · refine (careful_set _).bind fun _ => ?_
    split
    · exact careful_pure _
    · exact careful_throw nofun

theorem careful_readLine : Careful Input.readLine := by
  refine careful_get.bind fun input => (careful_modify _).bind fun _ => ?_
  have hfetch : Careful ((input.pending ++ ·) <$> Input.fetch) :=
    careful_fetch.bind fun _ => careful_pure _
  -- The line is cut in the same way whether it was held or fetched.
  refine .ite (fun _ => (careful_pure _).bind fun line => ?_) fun _ => hfetch.bind fun line => ?_
  all_goals
    refine .ite (fun _ => careful_pure _) fun _ => ?_
    exact (careful_modify _).bind fun _ => careful_pure _

theorem careful_readCodes (small : List Char → List Char) (capacity : Nat) :
    Careful (readCodes small capacity : Exec H (Option (List UInt8))) := by
  have hline : Careful (readLine : Exec H (Option (List Char))) :=
    careful_flush.bind fun _ => careful_onInput careful_readLine
  refine hline.bind fun line => ?_
  cases line with
  | none => exact careful_pure _
  | some line => exact careful_pure _

theorem careful_readChar : Careful (readChar : Exec H (Option Char)) := by
  refine careful_flush.bind fun _ => careful_onInput ?_
  refine careful_get.bind fun input => ?_
  refine .ite (fun _ => careful_fetch.bind fun line => ?_)
    fun _ => (careful_pure _).bind fun line => ?_
  all_goals
    cases line with
    | nil => exact careful_pure _
    | cons c rest => exact (careful_modify _).bind fun _ => careful_pure _

theorem careful_tokenise (hH : H.Careful) (request : TokenRequest) :
    Careful (tokenise request : Exec H Unit) :=
  .ite (fun _ => careful_pure _) fun _ => careful_onLexer (hH.tokenise request)

end Session

/-! ## 5. Instructions on the whole session -/

namespace Handler

open Session

variable {H : Host} {i : Instruction} {args : List Word} {s : Session H}

theorem careful_argument (index : Nat) : Careful (argument i args index : Exec H Word) :=
  careful_onMachine (Machine.careful_operand i args index)

theorem reads_argument (index : Nat) : Keeps Eq (argument i args index : Exec H Word) :=
  reads_onMachine (Machine.keeps_operand i args index)

theorem careful_onDeliver (value : Word) :
    Careful (onMachine (Machine.deliver i value) : Exec H Flow) :=
  careful_onMachine (Machine.careful_deliver i value)

theorem careful_onBranch (condition : Bool) :
    Careful (onMachine (Machine.branch i.branch condition) : Exec H Flow) :=
  careful_onMachine (Machine.careful_branch _ _)

theorem careful_random : Careful (random i args : Exec H Flow) := by
  refine (careful_argument 0).bind fun bound => careful_get.bind fun s => ?_
  exact (careful_set _).bind fun _ => careful_onDeliver _

theorem careful_verify : Careful (verify i args : Exec H Flow) := by
  refine careful_get.bind fun s => ?_
  refine (careful_lift (Header.clean_checksum _)).bind fun expected => ?_
  exact (careful_lift (Header.clean_fileLength _)).bind fun length => careful_onBranch _

theorem careful_printCode (code : Word) : Careful (printCode code : Exec H Unit) := by
  unfold printCode
  split
  · exact careful_writeOutput _
  · exact careful_pure _

theorem cleanAt_printAt (hs : s.Legible) (addr : Nat) : CleanAt s (printAt addr) :=
  (cleanAt_decodeText hs addr).bind fun text => careful_writeOutput text

theorem cleanAt_printInline (hs : s.Legible) : CleanAt s (printInline i) := by
  unfold printInline
  split
  · exact cleanAt_printAt hs _
  · refine (careful_get s).bind fun _ => careful_throw ?_
    exact nofun

theorem cleanAt_print (hs : s.Legible) : CleanAt s (print i args) :=
  (cleanAt_printInline hs).bind fun _ => careful_pure _

theorem cleanAt_printRet (hs : s.Legible) : CleanAt s (printRet i args) := by
  refine (cleanAt_printInline hs).bind fun _ => ?_
  exact (careful_writeOutput _).bind fun _ => careful_onMachine (Machine.careful_ret 1)

theorem careful_newLine : Careful (newLine i args : Exec H Flow) :=
  (careful_writeOutput _).bind fun _ => careful_pure _

theorem cleanAt_printAddr (hs : s.Legible) : CleanAt s (printAddr i args) := by
  refine (careful_argument 0 s).bind_reads (reads_argument 0) fun addr => ?_
  exact (cleanAt_printAt hs _).bind fun _ => careful_pure _

theorem cleanAt_printPaddr (hs : s.Legible) : CleanAt s (printPaddr i args) := by
  refine (careful_argument 0 s).bind_reads (reads_argument 0) fun packed => ?_
  refine (careful_memory s).bind_reads (.bind keeps_get fun _ => keeps_pure _) fun memory => ?_
  refine (careful_lift (PackedAddress.clean_text memory packed) s).bind_reads (keeps_lift _)
    fun addr => ?_
  exact (cleanAt_printAt hs addr).bind fun _ => careful_pure _

theorem careful_printChar : Careful (printChar i args : Exec H Flow) := by
  refine (careful_argument 0).bind fun code => ?_
  exact (careful_printCode code).bind fun _ => careful_pure _

theorem careful_printNum : Careful (printNum i args : Exec H Flow) := by
  refine (careful_argument 0).bind fun value => ?_
  exact (careful_writeOutput _).bind fun _ => careful_pure _

theorem careful_printUnicode : Careful (printUnicode i args : Exec H Flow) := by
  refine (careful_argument 0).bind fun code => ?_
  exact (careful_writeOutput _).bind fun _ => careful_pure _

theorem careful_checkUnicode : Careful (checkUnicode i args : Exec H Flow) :=
  (careful_argument 0).bind fun _ => careful_onDeliver _

theorem careful_printCells : ∀ count addr : Nat, Careful (printCells count addr : Exec H Unit)
  | 0, _ => careful_pure _
  | count + 1, addr => by
      refine careful_memory.bind fun memory => ?_
      refine (careful_lift (memory.clean_readByte addr)).bind fun code => ?_
      refine (careful_printCode _).bind fun _ => ?_
      exact careful_printCells count (addr + 1)

theorem careful_printRows (width stride : Nat) :
    ∀ rows addr : Nat, Careful (printRows width stride rows addr : Exec H Unit)
  | 0, _ => careful_pure _
  | rows + 1, addr => by
      refine (careful_writeOutput _).bind fun _ => ?_
      refine (careful_printCells width addr).bind fun _ => ?_
      exact careful_printRows width stride rows (addr + stride)

theorem careful_printTable : Careful (printTable i args : Exec H Flow) := by
  refine (careful_argument 0).bind fun table => ?_
  refine (careful_argument 1).bind fun width => ?_
  refine .ite (fun _ => careful_pure _) fun _ => ?_
  refine (careful_printCells _ _).bind fun _ => ?_
  exact (careful_printRows _ _ _ _).bind fun _ => careful_pure _

theorem careful_outputStream : Careful (outputStream i args : Exec H Flow) := by
  have hselect (selected : Bool) : Careful (selectSink selected : Exec H Unit) := careful_modify _
  refine (careful_argument 0).bind fun stream => ?_
  refine .ite (fun _ => (hselect true).bind fun _ => careful_pure _) fun _ => ?_
  refine .ite (fun _ => (hselect false).bind fun _ => careful_pure _) fun _ => ?_
  refine .ite (fun _ => ?_) fun _ => ?_
  · refine (careful_argument 1).bind fun table => ?_
    exact (careful_openTable _).bind fun _ => careful_pure _
  · exact .ite (fun _ => careful_closeTable.bind fun _ => careful_pure _) fun _ => careful_pure _

/-- The status line reads a global and the object it names before it decodes the name. -/
theorem cleanAt_refreshStatusLine (hH : H.Careful) (hs : s.Legible) :
    CleanAt s (refreshStatusLine : Exec H Unit) := by
  have hname : CleanAt s (locationName : Exec H String) := by
    refine (careful_onMachine (Machine.careful_readGlobal _) s).bind_reads
      (reads_onMachine (Machine.keeps_readGlobal _)) fun location => ?_
    refine careful_get s |>.bind_reads keeps_get fun s' => ?_
    split
    · refine .ite (fun _ => careful_pure _ s) fun _ => ?_
      refine (careful_lift (hH.nameAddress _ _ _) s).bind_reads (keeps_lift _) fun addr => ?_
      exact cleanAt_decodeText hs addr
    · exact careful_pure _ s
  refine hname.bind fun location => ?_
  refine (careful_onMachine (Machine.careful_readGlobal _)).bind fun left => ?_
  refine (careful_onMachine (Machine.careful_readGlobal _)).bind fun right => ?_
  refine careful_memory.bind fun memory => ?_
  exact (careful_lift (memory.clean_readByte _)).bind fun flags => careful_onScreen _

theorem cleanAt_showStatus (hH : H.Careful) (hs : s.Legible) : CleanAt s (showStatus i args) := by
  refine (careful_get s).bind_reads keeps_get fun _ => ?_
  refine .ite (fun _ => ?_) fun _ => careful_pure _ s
  exact (cleanAt_refreshStatusLine hH hs).bind fun _ => careful_pure _

theorem careful_screenOp (change : Screen → Word → Screen) :
    Careful (screenOp change i args : Exec H Flow) := by
  refine (careful_argument 0).bind fun value => ?_
  exact (careful_onScreen _).bind fun _ => careful_pure _

theorem careful_setCursor : Careful (setCursor i args : Exec H Flow) := by
  refine (careful_argument 0).bind fun line => ?_
  exact (careful_onScreen _).bind fun _ => careful_pure _

theorem careful_getCursor : Careful (getCursor i args : Exec H Flow) := by
  refine (careful_argument 0).bind fun array => careful_get.bind fun s => ?_
  refine (careful_onMachine (Machine.careful_writeWord _ _)).bind fun _ => ?_
  exact (careful_onMachine (Machine.careful_writeWord _ _)).bind fun _ => careful_pure _

theorem careful_setColour : Careful (setColour i args : Exec H Flow) := by
  refine (careful_argument 0).bind fun foreground => ?_
  refine (careful_argument 1).bind fun background => ?_
  exact (careful_onScreen _).bind fun _ => careful_pure _

theorem careful_setFont : Careful (setFont i args : Exec H Flow) := by
  refine (careful_argument 0).bind fun font => careful_get.bind fun s => ?_
  exact (careful_onScreen _).bind fun _ => careful_onDeliver _

/-! ## 6. Reading -/

theorem careful_inputStream : Careful (inputStream i args : Exec H Flow) :=
  (careful_argument 0).bind fun _ => careful_pure _

variable {small : List Char → List Char}

theorem cleanAt_sread (hH : H.Careful) (hs : s.Legible) : CleanAt s (sread small i args) := by
  refine (careful_argument 0 s).bind_reads (reads_argument 0) fun buffer => ?_
  refine (careful_get s).bind_reads keeps_get fun _ => ?_
  -- The line is read in the same way whether or not the status line is shown before.
  refine .ite (fun _ => (cleanAt_refreshStatusLine hH hs).bind fun _ => ?_)
    fun _ => (?_ : Careful _) s
  all_goals
    refine careful_memory.bind fun memory => ?_
    refine (careful_lift (memory.clean_readByte _)).bind fun size => ?_
    refine (careful_readCodes _ _).bind fun codes => ?_
    cases codes with
    | none => exact careful_pure _
    | some codes =>
        refine (careful_onMachine (Machine.careful_writeSlice _ _)).bind fun _ => ?_
        refine (careful_onMachine (Machine.careful_writeByte _ _)).bind fun _ => ?_
        exact (careful_tokenise hH _).bind fun _ => careful_pure _

theorem careful_aread (hH : H.Careful) : Careful (aread small i args : Exec H Flow) := by
  refine (careful_argument 0).bind fun buffer => careful_memory.bind fun memory => ?_
  refine (careful_lift (memory.clean_readByte _)).bind fun capacity => ?_
  refine (careful_readCodes _ _).bind fun codes => ?_
  cases codes with
  | none => exact careful_pure _
  | some codes =>
      refine (careful_onMachine (Machine.careful_writeByte _ _)).bind fun _ => ?_
      refine (careful_onMachine (Machine.careful_writeSlice _ _)).bind fun _ => ?_
      exact (careful_tokenise hH _).bind fun _ => careful_onDeliver _

theorem careful_readCharacter : Careful (readCharacter i args : Exec H Flow) := by
  refine careful_readChar.bind fun c => ?_
  cases c with
  | none => exact careful_pure _
  | some c => exact careful_onDeliver _

theorem careful_tokeniseBuffer (hH : H.Careful) : Careful (tokeniseBuffer i args : Exec H Flow) := by
  refine (careful_argument 0).bind fun textBuffer => ?_
  refine (careful_argument 1).bind fun parseBuffer => ?_
  exact (careful_tokenise hH _).bind fun _ => careful_pure _

/-! ## 7. Objects -/

theorem careful_askAbout {α : Type} {question : H.Objects → Memory → Except Fault α} (object : Word)
    (nothing : α) (h : ∀ objects memory, Clean (question objects memory)) :
    Careful (askAbout object nothing question : Exec H α) :=
  .ite (fun _ => careful_pure _) fun _ => careful_askObjects h

theorem careful_relative {relation : H.Objects → Memory → Word → Except Fault Word}
    (h : ∀ objects memory object, Clean (relation objects memory object)) :
    Careful (relative relation i args : Exec H Flow) := by
  refine (careful_argument 0).bind fun object => ?_
  refine (careful_askAbout object 0 fun objects memory => h objects memory object).bind
    fun related => ?_
  refine (careful_onMachine (Machine.careful_storeResult _ _)).bind fun _ => ?_
  exact careful_onBranch _

theorem careful_getPropLen (hH : H.Careful) : Careful (getPropLen i args : Exec H Flow) := by
  refine (careful_argument 0).bind fun addr => ?_
  refine (careful_askObjects fun objects memory => hH.propertyLength objects memory addr).bind
    fun length => ?_
  exact careful_onDeliver _

theorem cleanAt_printObj (hH : H.Careful) (hs : s.Legible) : CleanAt s (printObj i args) := by
  refine (careful_argument 0 s).bind_reads (reads_argument 0) fun object => ?_
  refine .ite (fun _ => ?_) fun _ => careful_pure _ s
  refine (careful_askObjects (fun _ _ => hH.nameAddress _ _ _) s).bind_reads (reads_askObjects _)
    fun addr => ?_
  exact (cleanAt_printAt hs addr).bind fun _ => careful_pure _

theorem careful_jin (hH : H.Careful) : Careful (jin i args : Exec H Flow) := by
  refine (careful_argument 0).bind fun object => ?_
  refine (careful_argument 1).bind fun dest => ?_
  refine (careful_askAbout object 0 fun objects memory => hH.parent objects memory object).bind
    fun parent => ?_
  exact careful_onBranch _

theorem careful_testAttr (hH : H.Careful) : Careful (testAttr i args : Exec H Flow) := by
  refine (careful_argument 0).bind fun object => ?_
  refine (careful_argument 1).bind fun number => ?_
  refine (careful_askAbout object false fun objects memory =>
    hH.testAttribute objects memory object number).bind fun isSet => ?_
  exact careful_onBranch _

/-- A change of the objects that is left out for object 0. -/
theorem careful_changeObjects {c : Prop} [Decidable c] {action : Action (H.Objects × Memory) Unit}
    (h : Careful action) :
    Careful (do
      if c then onObjects action
      return .next : Exec H Flow) :=
  .ite (fun _ => (careful_onObjects h).bind fun _ => careful_pure _) fun _ => careful_pure _

theorem careful_removeObj (hH : H.Careful) : Careful (removeObj i args : Exec H Flow) :=
  (careful_argument 0).bind fun object => careful_changeObjects (hH.remove object)

theorem careful_setAttr (hH : H.Careful) : Careful (setAttr i args : Exec H Flow) := by
  refine (careful_argument 0).bind fun object => ?_
  exact (careful_argument 1).bind fun number => careful_changeObjects (hH.setAttribute object number)

theorem careful_clearAttr (hH : H.Careful) : Careful (clearAttr i args : Exec H Flow) := by
  refine (careful_argument 0).bind fun object => ?_
  exact (careful_argument 1).bind fun number =>
    careful_changeObjects (hH.clearAttribute object number)

theorem careful_insertObj (hH : H.Careful) : Careful (insertObj i args : Exec H Flow) := by
  refine (careful_argument 0).bind fun object => ?_
  exact (careful_argument 1).bind fun dest => careful_changeObjects (hH.insert object dest)

theorem careful_putProp (hH : H.Careful) : Careful (putProp i args : Exec H Flow) := by
  refine (careful_argument 0).bind fun object => ?_
  refine (careful_argument 1).bind fun number => ?_
  exact (careful_argument 2).bind fun value =>
    careful_changeObjects (hH.putProperty object number value)

theorem careful_propertyOp {question : H.Objects → Memory → Word → Word → Except Fault Word}
    (h : ∀ objects memory object number, Clean (question objects memory object number)) :
    Careful (propertyOp question i args : Exec H Flow) := by
  refine (careful_argument 0).bind fun object => ?_
  refine (careful_argument 1).bind fun number => ?_
  refine (careful_askAbout object 0 fun objects memory => h objects memory object number).bind
    fun answer => ?_
  exact careful_onDeliver _

/-! ## 8. Saving and restoring -/

theorem careful_report (success : Bool) : Careful (report i success : Exec H Flow) :=
  careful_onMachine (Machine.careful_reportOutcome i success _)

theorem careful_takeSnapshot : Careful (takeSnapshot : Exec H Snapshot) :=
  careful_get.bind fun _ => careful_lift (Snapshot.clean_capture _ _ _)

theorem careful_resumeFrom (snapshot : Snapshot) : Careful (resumeFrom snapshot : Exec H Flow) :=
  careful_get.bind fun _ => careful_onMachine (Machine.careful_resume snapshot _)

theorem careful_save : Careful (save i args : Exec H Flow) := by
  refine .ite (fun _ => ?_) fun _ => careful_report false
  refine careful_takeSnapshot.bind fun snapshot => careful_get.bind fun s => ?_
  split
  · exact careful_report false
  · rename_i store _
    have hsave : Clean (store.save snapshot) := by
      cases store with
      | slot _ => exact clean_ok _
      | declining => exact clean_ok _
      | failing => exact clean_error nofun
    refine (careful_lift hsave).bind fun _ => ?_
    exact (careful_modify _).bind fun _ => careful_report _

theorem careful_restore : Careful (restore i args : Exec H Flow) := by
  refine .ite (fun _ => ?_) fun _ => careful_report false
  refine careful_get.bind fun s => ?_
  split
  · exact careful_report false
  · rename_i store _
    have hrestore : Clean store.restore := by
      cases store with
      | slot _ => exact clean_ok _
      | declining => exact clean_ok _
      | failing => exact clean_error nofun
    refine (careful_lift hrestore).bind fun held => ?_
    cases held with
    | none => exact careful_report false
    | some snapshot => exact careful_resumeFrom snapshot

theorem careful_saveUndo : Careful (saveUndo i args : Exec H Flow) := by
  refine careful_takeSnapshot.bind fun snapshot => ?_
  exact (careful_modify _).bind fun _ => careful_onDeliver 1

theorem careful_restoreUndo : Careful (restoreUndo i args : Exec H Flow) := by
  refine careful_get.bind fun s => ?_
  split
  · exact careful_resumeFrom _
  · exact careful_onDeliver 0

theorem careful_restart : Careful (restart i args : Exec H Flow) := by
  refine careful_get.bind fun s => ?_
  refine (careful_onMachine (Machine.careful_restart _)).bind fun _ => ?_
  exact (careful_modify _).bind fun _ => careful_pure _

end Handler

open Handler Session in
/-- **No operation meets a defect** in a session whose text can be decoded. -/
theorem Operation.cleanAt_perform {H : Host} {s : Session H} (hH : H.Careful) (hs : s.Legible)
    (op : Operation) (i : Instruction) (args : List Word) : CleanAt s (op.perform i args) := by
  cases op with
  | bitOr => exact careful_onMachine (careful_binary fun _ _ => clean_ok _) s
  | bitAnd => exact careful_onMachine (careful_binary fun _ _ => clean_ok _) s
  | add => exact careful_onMachine (careful_binary fun _ _ => clean_ok _) s
  | sub => exact careful_onMachine (careful_binary fun _ _ => clean_ok _) s
  | mul => exact careful_onMachine (careful_binary fun _ _ => clean_ok _) s
  | div => exact careful_onMachine (careful_binary Arithmetic.clean_quotient) s
  | mod => exact careful_onMachine (careful_binary Arithmetic.clean_remainder) s
  | bitNot => exact careful_onMachine careful_bitNot s
  | random => exact careful_random s
  | logShift => exact careful_onMachine (careful_binary fun _ _ => clean_ok _) s
  | artShift => exact careful_onMachine (careful_binary fun _ _ => clean_ok _) s
  | je => exact careful_onMachine careful_je s
  | jl => exact careful_onMachine (careful_compare _) s
  | jg => exact careful_onMachine (careful_compare _) s
  | decChk => exact careful_onMachine (careful_changeAndCompare _ _) s
  | incChk => exact careful_onMachine (careful_changeAndCompare _ _) s
  | test => exact careful_onMachine (careful_compare _) s
  | jz => exact careful_onMachine careful_jz s
  | jump => exact careful_onMachine careful_jumpBy s
  | nop => exact careful_onMachine (careful_pure _) s
  | quit => exact careful_onMachine (careful_pure _) s
  | verify => exact (careful_verify : Careful (Handler.verify i args)) s
  | piracy => exact careful_onBranch true s
  | inc => exact careful_onMachine (careful_changeVar _) s
  | dec => exact careful_onMachine (careful_changeVar _) s
  | load => exact careful_onMachine careful_load s
  | store => exact careful_onMachine careful_store s
  | loadw => exact careful_onMachine careful_loadw s
  | loadb => exact careful_onMachine careful_loadb s
  | storew => exact careful_onMachine careful_storew s
  | storeb => exact careful_onMachine careful_storeb s
  | scanTable => exact careful_onMachine careful_scanTable s
  | copyTable => exact careful_onMachine careful_copyTable s
  | rtrue => exact careful_onMachine (Machine.careful_ret 1) s
  | rfalse => exact careful_onMachine (Machine.careful_ret 0) s
  | retPopped => exact careful_onMachine careful_retPopped s
  | dropTop => exact careful_onMachine careful_dropTop s
  | catchFrame => exact careful_onMachine careful_catchFrame s
  | call => exact careful_onMachine careful_callRoutine s
  | ret => exact careful_onMachine careful_retValue s
  | throwTo => exact careful_onMachine careful_throwTo s
  | push => exact careful_onMachine careful_pushValue s
  | pull => exact careful_onMachine careful_pull s
  | checkArgCount => exact careful_onMachine careful_checkArgCount s
  | print => exact (cleanAt_print hs : CleanAt s (Handler.print i args))
  | printRet => exact (cleanAt_printRet hs : CleanAt s (Handler.printRet i args))
  | newLine => exact (careful_newLine : Careful (Handler.newLine i args)) s
  | printAddr => exact cleanAt_printAddr hs
  | printPaddr => exact cleanAt_printPaddr hs
  | printChar => exact careful_printChar s
  | printNum => exact careful_printNum s
  | printTable => exact careful_printTable s
  | printUnicode => exact careful_printUnicode s
  | checkUnicode => exact careful_checkUnicode s
  | outputStream => exact careful_outputStream s
  | sread => exact cleanAt_sread hH hs
  | aread => exact careful_aread hH s
  | readChar => exact (careful_readCharacter : Careful (Handler.readCharacter i args)) s
  | inputStream => exact careful_inputStream s
  | tokenise => exact careful_tokeniseBuffer hH s
  | getSibling => exact careful_relative hH.sibling s
  | getChild => exact careful_relative hH.child s
  | getParent => exact careful_relative hH.parent s
  | getPropLen => exact careful_getPropLen hH s
  | removeObj => exact careful_removeObj hH s
  | printObj => exact cleanAt_printObj hH hs
  | jin => exact careful_jin hH s
  | testAttr => exact careful_testAttr hH s
  | setAttr => exact careful_setAttr hH s
  | clearAttr => exact careful_clearAttr hH s
  | insertObj => exact careful_insertObj hH s
  | getProp => exact careful_propertyOp hH.property s
  | getPropAddr => exact careful_propertyOp hH.propertyAddress s
  | getNextProp => exact careful_propertyOp hH.nextProperty s
  | putProp => exact careful_putProp hH s
  | showStatus => exact (cleanAt_showStatus hH hs : CleanAt s (Handler.showStatus i args))
  | setColour => exact careful_setColour s
  | splitWindow => exact careful_screenOp _ s
  | setWindow => exact careful_screenOp _ s
  | eraseWindow => exact careful_screenOp _ s
  | eraseLine => exact careful_screenOp _ s
  | setCursor => exact careful_setCursor s
  | getCursor => exact careful_getCursor s
  | setTextStyle => exact careful_screenOp _ s
  | bufferMode => exact careful_screenOp _ s
  | soundEffect => exact careful_pure _ s
  | setFont => exact careful_setFont s
  | save => exact careful_save s
  | restore => exact careful_restore s
  | restart => exact (careful_restart : Careful (Handler.restart i args)) s
  | saveUndo => exact (careful_saveUndo : Careful (Handler.saveUndo i args)) s
  | restoreUndo => exact (careful_restoreUndo : Careful (Handler.restoreUndo i args)) s

end ZMachine
