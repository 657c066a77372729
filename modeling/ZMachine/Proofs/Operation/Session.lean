import ZMachine.Operation.Arithmetic
import ZMachine.Operation.Branching
import ZMachine.Operation.Objects
import ZMachine.Operation.Reading
import ZMachine.Proofs.Session.Calm

/-!
# Instructions on the whole session

Printing, reading, objects and the screen: each of these instructions goes where the flow it reports
says, saves nothing, and leaves alone every value on the stack. Those that let a helper of the host
change memory only ever go on behind themselves, or stop.
-/

namespace ZMachine.Handler

open ZMachine.Action Session

variable {H : Host} {i : Instruction} {args : List Word} {leap : Option Word}
  {reach : UInt8 → Nat}

theorem keeps_argument (index : Nat) : Keeps Quiet (argument i args index : Exec H Word) :=
  keeps_onMachine (Machine.keeps_operand i args index)

theorem steers_onDeliver (j : Instruction) (value : Word) :
    Steers i leap reach (onMachine (Machine.deliver j value) : Exec H Flow) :=
  steers_onMachine (Machine.steers_deliver j value)

theorem steers_onBranch (condition : Bool) :
    Steers i leap reach (onMachine (Machine.branch i.branch condition) : Exec H Flow) :=
  steers_onMachine (Machine.steers_branch condition)

/-! ## 1. Random numbers and the story's checksum -/

theorem steers_random : Steers i none reach (random i args : Exec H Flow) := by
  refine Session.Steers.bind (keeps_argument 0) fun bound => Session.Steers.after fun s => ?_
  rw [get_bind]
  generalize (if bound.toInt16 > 0 then s.random.draw bound
    else (0, s.random.reseed (UInt64.ofNat bound.toInt16.toInt.natAbs))) = drawn
  obtain ⟨result, random⟩ := drawn
  exact ⟨{ s with random }, _, quiet_around .., set_bind _ _ _, steers_onDeliver i result⟩

theorem steers_verify : Steers i none reach (verify i args : Exec H Flow) := by
  refine Session.Steers.bind keeps_get fun s => ?_
  refine Session.Steers.bind (keeps_lift _) fun expected => ?_
  refine Session.Steers.bind (keeps_lift _) fun length => ?_
  exact steers_onBranch _

/-! ## 2. Printing -/

theorem keeps_printCode (code : Word) : Keeps Quiet (printCode code : Exec H Unit) := by
  unfold printCode
  split
  · exact keeps_writeOutput _
  · exact keeps_pure _

theorem keeps_printAt (addr : Nat) : Keeps Quiet (printAt addr : Exec H Unit) :=
  Keeps.bind (keeps_decodeText addr) fun text => keeps_writeOutput text

theorem keeps_printInline (j : Instruction) : Keeps Quiet (printInline j : Exec H Unit) := by
  unfold printInline
  split
  · exact keeps_printAt _
  · exact Keeps.bind keeps_get fun _ => keeps_throw _

theorem steers_print : Steers i none reach (print i args : Exec H Flow) :=
  Session.Steers.bind (keeps_printInline i) fun _ => steers_next

theorem steers_printRet : Steers i none reach (printRet i args : Exec H Flow) := by
  refine Session.Steers.bind (keeps_printInline i) fun _ => ?_
  refine Session.Steers.bind (keeps_writeOutput _) fun _ => ?_
  exact steers_onMachine (Machine.steers_ret 1)

theorem steers_newLine : Steers i none reach (newLine i args : Exec H Flow) :=
  Session.Steers.bind (keeps_writeOutput _) fun _ => steers_next

theorem steers_printAddr : Steers i none reach (printAddr i args : Exec H Flow) := by
  refine Session.Steers.bind (keeps_argument 0) fun addr => ?_
  exact Session.Steers.bind (keeps_printAt _) fun _ => steers_next

theorem steers_printPaddr : Steers i none reach (printPaddr i args : Exec H Flow) := by
  refine Session.Steers.bind (keeps_argument 0) fun packed => ?_
  refine Session.Steers.bind keeps_memory fun memory => ?_
  refine Session.Steers.bind (keeps_lift _) fun addr => ?_
  exact Session.Steers.bind (keeps_printAt addr) fun _ => steers_next

theorem steers_printChar : Steers i none reach (printChar i args : Exec H Flow) := by
  refine Session.Steers.bind (keeps_argument 0) fun code => ?_
  exact Session.Steers.bind (keeps_printCode code) fun _ => steers_next

theorem steers_printNum : Steers i none reach (printNum i args : Exec H Flow) := by
  refine Session.Steers.bind (keeps_argument 0) fun value => ?_
  exact Session.Steers.bind (keeps_writeOutput _) fun _ => steers_next

theorem steers_printUnicode : Steers i none reach (printUnicode i args : Exec H Flow) := by
  refine Session.Steers.bind (keeps_argument 0) fun code => ?_
  exact Session.Steers.bind (keeps_writeOutput _) fun _ => steers_next

theorem steers_checkUnicode : Steers i none reach (checkUnicode i args : Exec H Flow) :=
  Session.Steers.bind (keeps_argument 0) fun _ => steers_onDeliver i _

theorem keeps_printCells : ∀ count addr : Nat, Keeps Quiet (printCells count addr : Exec H Unit)
  | 0, _ => keeps_pure _
  | count + 1, addr => by
      refine Keeps.bind keeps_memory fun memory => ?_
      refine Keeps.bind (keeps_lift _) fun code => ?_
      refine Keeps.bind (keeps_printCode _) fun _ => ?_
      exact keeps_printCells count (addr + 1)

theorem keeps_printRows (width stride : Nat) : ∀ rows addr : Nat,
    Keeps Quiet (printRows width stride rows addr : Exec H Unit)
  | 0, _ => keeps_pure _
  | rows + 1, addr => by
      refine Keeps.bind (keeps_writeOutput _) fun _ => ?_
      refine Keeps.bind (keeps_printCells width addr) fun _ => ?_
      exact keeps_printRows width stride rows (addr + stride)

theorem steers_printTable : Steers i none reach (printTable i args : Exec H Flow) := by
  refine Session.Steers.bind (keeps_argument 0) fun table => ?_
  refine Session.Steers.bind (keeps_argument 1) fun width => ?_
  refine Meets.ite steers_next ?_
  refine Session.Steers.bind (keeps_printCells _ _) fun _ => ?_
  exact Session.Steers.bind (keeps_printRows _ _ _ _) fun _ => steers_next

theorem steers_outputStream : Steers i none reach (outputStream i args : Exec H Flow) := by
  refine Session.Steers.bind (keeps_argument 0) fun stream => ?_
  refine Meets.ite (Session.Steers.bind (keeps_selectSink true) fun _ => steers_next) ?_
  refine Meets.ite (Session.Steers.bind (keeps_selectSink false) fun _ => steers_next) ?_
  refine Meets.ite ?_ ?_
  · refine Session.Steers.bind (keeps_argument 1) fun table => ?_
    exact Session.Steers.bind (keeps_openTable _) fun _ => steers_next
  · exact Meets.ite (Session.Steers.bind keeps_closeTable fun _ => steers_next) steers_next

/-! ## 3. The screen -/

theorem keeps_locationName : Keeps Quiet (locationName : Exec H String) := by
  refine Keeps.bind (keeps_onMachine (Machine.keeps_readGlobal _)) fun location => ?_
  refine Keeps.bind keeps_get fun s => ?_
  split
  · refine Meets.ite (keeps_pure _) ?_
    exact Keeps.bind (keeps_lift _) fun addr => keeps_decodeText addr
  · exact keeps_pure _

theorem keeps_refreshStatusLine : Keeps Quiet (refreshStatusLine : Exec H Unit) := by
  refine Keeps.bind keeps_locationName fun location => ?_
  refine Keeps.bind (keeps_onMachine (Machine.keeps_readGlobal _)) fun left => ?_
  refine Keeps.bind (keeps_onMachine (Machine.keeps_readGlobal _)) fun right => ?_
  refine Keeps.bind keeps_memory fun memory => ?_
  exact Keeps.bind (keeps_lift _) fun flags => keeps_onScreen _

theorem steers_showStatus : Steers i none reach (showStatus i args : Exec H Flow) := by
  refine Session.Steers.bind keeps_get fun s => ?_
  exact Meets.ite (Session.Steers.bind keeps_refreshStatusLine fun _ => steers_next) steers_next

theorem steers_screenOp (change : Screen → Word → Screen) :
    Steers i none reach (screenOp change i args : Exec H Flow) := by
  refine Session.Steers.bind (keeps_argument 0) fun value => ?_
  exact Session.Steers.bind (keeps_onScreen _) fun _ => steers_next

theorem steers_setCursor : Steers i none reach (setCursor i args : Exec H Flow) := by
  refine Session.Steers.bind (keeps_argument 0) fun line => ?_
  exact Session.Steers.bind (keeps_onScreen _) fun _ => steers_next

theorem steers_getCursor : Steers i none reach (getCursor i args : Exec H Flow) := by
  refine Session.Steers.bind (keeps_argument 0) fun array => ?_
  refine Session.Steers.bind keeps_get fun s => ?_
  refine Session.Steers.bind (keeps_onMachine (Machine.keeps_writeWord _ _)) fun _ => ?_
  exact Session.Steers.bind (keeps_onMachine (Machine.keeps_writeWord _ _)) fun _ => steers_next

theorem steers_setColour : Steers i none reach (setColour i args : Exec H Flow) := by
  refine Session.Steers.bind (keeps_argument 0) fun foreground => ?_
  refine Session.Steers.bind (keeps_argument 1) fun background => ?_
  exact Session.Steers.bind (keeps_onScreen _) fun _ => steers_next

theorem steers_setFont : Steers i none reach (setFont i args : Exec H Flow) := by
  refine Session.Steers.bind (keeps_argument 0) fun font => ?_
  refine Session.Steers.bind keeps_get fun s => ?_
  exact Session.Steers.bind (keeps_onScreen _) fun _ => steers_onDeliver i _

/-! ## 4. Reading -/

theorem steers_inputStream : Steers i none reach (inputStream i args : Exec H Flow) :=
  Session.Steers.bind (keeps_argument 0) fun _ => steers_next

variable {small : List Char → List Char}

theorem stays_sread : Stays (sread small i args : Exec H Flow) := by
  refine Stays.bind ((keeps_argument 0).mono .of_quiet) fun buffer => ?_
  refine Stays.bind keeps_get fun s => ?_
  -- The line is read in the same way whether or not the status line is shown before.
  refine Meets.ite (Stays.bind (keeps_refreshStatusLine.mono .of_quiet) fun _ => ?_) ?_
  all_goals
    refine Stays.bind (keeps_memory.mono .of_quiet) fun memory => ?_
    refine Stays.bind (keeps_lift _) fun size => ?_
    refine Stays.bind ((keeps_readCodes _ _).mono .of_quiet) fun codes => ?_
    cases codes with
    | none => exact stays_quit
    | some codes =>
        refine Stays.bind ((keeps_onMachine (Machine.keeps_writeSlice _ _)).mono .of_quiet) fun _ => ?_
        refine Stays.bind ((keeps_onMachine (Machine.keeps_writeByte _ _)).mono .of_quiet) fun _ => ?_
        exact Stays.bind (keeps_tokenise _) fun _ => stays_next

theorem stays_aread : Stays (aread small i args : Exec H Flow) := by
  refine Stays.bind ((keeps_argument 0).mono .of_quiet) fun buffer => ?_
  refine Stays.bind (keeps_memory.mono .of_quiet) fun memory => ?_
  refine Stays.bind (keeps_lift _) fun capacity => ?_
  refine Stays.bind ((keeps_readCodes _ _).mono .of_quiet) fun codes => ?_
  cases codes with
  | none => exact stays_quit
  | some codes =>
      refine Stays.bind ((keeps_onMachine (Machine.keeps_writeByte _ _)).mono .of_quiet) fun _ => ?_
      refine Stays.bind ((keeps_onMachine (Machine.keeps_writeSlice _ _)).mono .of_quiet) fun _ => ?_
      exact Stays.bind (keeps_tokenise _) fun _ => stays_deliver i _

theorem stays_readCharacter : Stays (readCharacter i args : Exec H Flow) := by
  refine Stays.bind (keeps_readChar.mono .of_quiet) fun c => ?_
  cases c with
  | none => exact stays_quit
  | some c => exact stays_deliver i _

theorem stays_tokeniseBuffer : Stays (tokeniseBuffer i args : Exec H Flow) := by
  refine Stays.bind ((keeps_argument 0).mono .of_quiet) fun textBuffer => ?_
  refine Stays.bind ((keeps_argument 1).mono .of_quiet) fun parseBuffer => ?_
  exact Stays.bind (keeps_tokenise _) fun _ => stays_next

/-! ## 5. Objects -/

theorem keeps_askAbout {α : Type} (object : Word) (nothing : α)
    (question : H.Objects → Memory → Except Fault α) :
    Keeps Quiet (askAbout object nothing question : Exec H α) :=
  Meets.ite (keeps_pure _) (keeps_askObjects question)

theorem steers_relative (relation : H.Objects → Memory → Word → Except Fault Word) :
    Steers i none reach (relative relation i args : Exec H Flow) := by
  refine Session.Steers.bind (keeps_argument 0) fun object => ?_
  refine Session.Steers.bind (keeps_askAbout _ _ _) fun related => ?_
  refine Session.Steers.bind (keeps_onMachine (Machine.keeps_storeResult _ _)) fun _ => ?_
  exact steers_onBranch _

theorem steers_getPropLen : Steers i none reach (getPropLen i args : Exec H Flow) := by
  refine Session.Steers.bind (keeps_argument 0) fun addr => ?_
  exact Session.Steers.bind (keeps_askObjects _) fun length => steers_onDeliver i length

theorem steers_printObj : Steers i none reach (printObj i args : Exec H Flow) := by
  refine Session.Steers.bind (keeps_argument 0) fun object => ?_
  refine Meets.ite ?_ steers_next
  refine Session.Steers.bind (keeps_askObjects _) fun addr => ?_
  exact Session.Steers.bind (keeps_printAt addr) fun _ => steers_next

theorem steers_jin : Steers i none reach (jin i args : Exec H Flow) := by
  refine Session.Steers.bind (keeps_argument 0) fun object => ?_
  refine Session.Steers.bind (keeps_argument 1) fun dest => ?_
  exact Session.Steers.bind (keeps_askAbout _ _ _) fun parent => steers_onBranch _

theorem steers_testAttr : Steers i none reach (testAttr i args : Exec H Flow) := by
  refine Session.Steers.bind (keeps_argument 0) fun object => ?_
  refine Session.Steers.bind (keeps_argument 1) fun number => ?_
  exact Session.Steers.bind (keeps_askAbout _ _ _) fun isSet => steers_onBranch _

theorem steers_propertyOp (question : H.Objects → Memory → Word → Word → Except Fault Word) :
    Steers i none reach (propertyOp question i args : Exec H Flow) := by
  refine Session.Steers.bind (keeps_argument 0) fun object => ?_
  refine Session.Steers.bind (keeps_argument 1) fun property => ?_
  exact Session.Steers.bind (keeps_askAbout _ _ _) fun answer => steers_onDeliver i answer

theorem stays_removeObj : Stays (removeObj i args : Exec H Flow) := by
  refine Stays.bind ((keeps_argument 0).mono .of_quiet) fun object => ?_
  exact Meets.ite (Stays.bind (keeps_onObjects fun h => h.remove _) fun _ => stays_next) stays_next

theorem stays_setAttr : Stays (setAttr i args : Exec H Flow) := by
  refine Stays.bind ((keeps_argument 0).mono .of_quiet) fun object => ?_
  refine Stays.bind ((keeps_argument 1).mono .of_quiet) fun number => ?_
  exact Meets.ite (Stays.bind (keeps_onObjects fun h => h.setAttribute _ _) fun _ => stays_next)
    stays_next

theorem stays_clearAttr : Stays (clearAttr i args : Exec H Flow) := by
  refine Stays.bind ((keeps_argument 0).mono .of_quiet) fun object => ?_
  refine Stays.bind ((keeps_argument 1).mono .of_quiet) fun number => ?_
  exact Meets.ite (Stays.bind (keeps_onObjects fun h => h.clearAttribute _ _) fun _ => stays_next)
    stays_next

theorem stays_insertObj : Stays (insertObj i args : Exec H Flow) := by
  refine Stays.bind ((keeps_argument 0).mono .of_quiet) fun object => ?_
  refine Stays.bind ((keeps_argument 1).mono .of_quiet) fun dest => ?_
  exact Meets.ite (Stays.bind (keeps_onObjects fun h => h.insert _ _) fun _ => stays_next) stays_next

theorem stays_putProp : Stays (putProp i args : Exec H Flow) := by
  refine Stays.bind ((keeps_argument 0).mono .of_quiet) fun object => ?_
  refine Stays.bind ((keeps_argument 1).mono .of_quiet) fun property => ?_
  refine Stays.bind ((keeps_argument 2).mono .of_quiet) fun value => ?_
  exact Meets.ite (Stays.bind (keeps_onObjects fun h => h.putProperty _ _ _) fun _ => stays_next)
    stays_next

end ZMachine.Handler
