import ZMachine.Proofs.Session.StoryVersion
import ZMachine.Proofs.StringLengths

/-!
# Texts inside instructions

An instruction that prints carries its text behind its opcode. Where the instruction ends is found
by measuring the text, and what is printed by reading it. The two agree, so that execution goes on
right behind the last word of what was printed.

* `Instruction.stringEnd_of_decode`   : an instruction ends where its text does.
* `Session.PrintsInline`              : the next step prints the text of its instruction.
* `Session.TextEndsWith`              : the text is read up to the end of the instruction.
* `Session.lengths_agree`             : strings in memory, and those inside instructions.
-/

namespace ZMachine

open ZMachine.Action

/-! ## 1. The end of an instruction -/

namespace Instruction

variable {m : Memory} {version : UInt8} {p q addr : Nat} {i : Instruction}

/-- Nothing comes behind the text of an instruction, so that reading stops where the text ends. -/
theorem stringEnd_of_scan (h : scan m version p = .ok i q) (ht : i.textAddr = some addr) :
    ZString.stringEnd m addr = .ok q := by
  obtain ⟨start, r, hstart, h⟩ := bind_eq_ok.mp h
  cases hstart
  obtain ⟨⟨form, op, kinds⟩, q₁, -, h⟩ := bind_eq_ok.mp h
  obtain ⟨operands, q₂, -, h⟩ := bind_eq_ok.mp h
  obtain ⟨store, q₃, -, h⟩ := bind_eq_ok.mp h
  obtain ⟨branch, q₄, -, h⟩ := bind_eq_ok.mp h
  obtain ⟨textAddr, q₅, htext, h⟩ := bind_eq_ok.mp h
  cases h
  rcases scanIf_eq_ok htext with ⟨hnone, -⟩ | ⟨start, hstart, htext⟩
  · cases ht.symm.trans hnone
  · cases ht.symm.trans hstart
    obtain ⟨hend, rfl⟩ := Cursor.text_eq_ok.mp htext
    exact hend

/-- **An instruction with a text ends where the text does.** -/
theorem stringEnd_of_decode (h : decode m p version = .ok i) (ht : i.textAddr = some addr) :
    ZString.stringEnd m addr = .ok (p + i.size) :=
  stringEnd_of_scan (decode_eq_ok.mp h) ht

end Instruction

/-! ## 2. Printing -/

namespace Session

variable {H : Host} {s t : Session H} {i : Instruction} {flow : Flow}

theorem printInline_eq_ok {u : Unit} :
    Handler.printInline i s = .ok u t ↔
      ∃ addr p, i.textAddr = some addr ∧ s.decoder s.machine.memory addr = .ok p ∧
        writeOutput p.1 s = .ok u t := by
  unfold Handler.printInline
  cases ht : i.textAddr with
  | none =>
      constructor
      · intro h
        cases h
      · rintro ⟨addr, p, h, -⟩
        cases h
  | some addr =>
      refine printAt_eq_ok.trans ⟨?_, ?_⟩
      · rintro ⟨p, hd, hw⟩
        exact ⟨addr, p, rfl, hd, hw⟩
      · rintro ⟨addr', p, h, hd, hw⟩
        cases h
        exact ⟨p, hd, hw⟩

/-- The next step prints the text in its instruction, whatever else it goes on to do. -/
def PrintsInline (s : Session H) (i : Instruction) : Prop :=
  ∃ args m u, s.Reads i args m ∧ Handler.printInline i (s.ready i m) = .ok () u

/-- Both operations that print a text of their own begin with it. -/
theorem printsInline_of_step {op : Operation} (hop : op = .print ∨ op = .printRet)
    (he : s.Executes i op) (h : step s = .ok flow t) : s.PrintsInline i := by
  obtain ⟨j, op', args, m, u, he', hr, hp, -⟩ := step_eq_ok h
  obtain ⟨rfl, rfl⟩ := he.unique he'
  rcases hop with rfl | rfl
  · obtain ⟨⟨⟩, q, hq, -⟩ := bind_eq_ok.mp hp
    exact ⟨args, m, q, hr, hq⟩
  · obtain ⟨⟨⟩, q, hq, -⟩ := bind_eq_ok.mp hp
    exact ⟨args, m, q, hr, hq⟩

/-- The text in the instruction is there to be read, and the last of the words it is read from is
the end of the instruction. -/
def TextEndsWith (s : Session H) (i : Instruction) : Prop :=
  ∃ addr text words, i.textAddr = some addr ∧
    ZString.decode s.machine.memory addr = .ok (text, 2 * words.length) ∧
    ZString.Spans s.machine.memory addr words ∧
    s.machine.pc + i.size = addr + 2 * words.length

theorem textEndsWith_of_prints {op : Operation} (he : s.Executes i op)
    (hd : s.decoder = ZString.decode) (h : s.PrintsInline i) : s.TextEndsWith i := by
  obtain ⟨args, m, u, hr, hp⟩ := h
  obtain ⟨addr, ⟨text, length⟩, ht, hdecode, -⟩ := printInline_eq_ok.mp hp
  have hm : (s.ready i m).machine.memory = s.machine.memory := hr.memory
  have hdecode : ZString.decode s.machine.memory addr = .ok (text, length) := by
    rw [← hd, ← hm]
    exact hdecode
  obtain ⟨words, hs, rfl⟩ := ZString.spans_of_decode hdecode
  have hread : ZString.stringEnd s.machine.memory addr = .ok (addr + 2 * words.length) :=
    ZString.stringEnd_eq_ok_iff.mpr ⟨words, hs, rfl⟩
  have hmeasured := Instruction.stringEnd_of_decode he.decoded ht
  exact ⟨addr, text, words, ht, hdecode, hs, Except.ok.inj (hmeasured.symm.trans hread)⟩

/-- **Strings are as long when they are read as when they are measured.** A string that has a text
measures as many bytes as the text was read from, 2000 at most, and the strings whose z-characters
can be collected are exactly those that measure no more than that, with three z-characters for two
bytes. So an instruction that prints its own text with the standard decoder ends with the last word
of what was printed. -/
theorem lengths_agree :
    (∀ (m : Memory) (addr : Nat),
      (∀ text length, ZString.decode m addr = .ok (text, length) →
        ZString.encodedLength m addr = .ok length ∧ length ≤ 2000) ∧
      (∀ length, (∃ zchars, ZString.collect m addr = .ok (zchars, length)) ↔
        ZString.encodedLength m addr = .ok length ∧ length ≤ 2000) ∧
      ∀ zchars length, ZString.collect m addr = .ok (zchars, length) →
        zchars.length = 3 * length / 2) ∧
    ∀ {H : Host} (s : Session H) (i : Instruction) (op : Operation),
      op = .print ∨ op = .printRet → s.Executes i op → s.decoder = ZString.decode →
      (∀ flow t, step s = .ok flow t → s.PrintsInline i) ∧
      (s.PrintsInline i → s.TextEndsWith i) := by
  refine ⟨fun m addr => ⟨fun text length h => ?_, fun length => ?_, fun zchars length h => ?_⟩, ?_⟩
  · exact ZString.exists_collect_iff.mp (ZString.exists_collect_of_decode h)
  · exact ZString.exists_collect_iff
  · exact ZString.length_of_collect h
  · intro H s i op hop he hd
    exact ⟨fun flow t h => printsInline_of_step hop he h, textEndsWith_of_prints he hd⟩

/-- A memory of version 3 with two instructions that print: "hello" at 0x1a, and at 0x1f "abc" with
a return. -/
def spokenTexts : Memory :=
  ⟨#[3, 0, 0, 0, 0, 0, 0, 0, 0, 0, 0, 0, 0, 0, 0, 0,
    0, 0, 0, 0, 0, 0, 0, 0, 0, 0, 0xb2, 0x35, 0x51, 0xc6, 0x85, 0xb3, 0x98, 0xe8]⟩

/-- A session at one of these, with no routine to return to. -/
def speakingAt (pc : Nat) : Session Host.standard :=
  bare
    { memory := spokenTexts
      version := 3
      pc
      stack := []
      frames := [Frame.main []]
      stackLimit := 1024 }

/-- The instruction without operands whose text stands at an address. -/
def withText (number : UInt8) (addr size : Nat) : Instruction :=
  { opcode := ⟨.op0, number⟩
    form := .short
    operands := []
    store := none
    branch := none
    textAddr := some addr
    size }

theorem speaking_agrees :
    (ZString.decode spokenTexts 0x1b = .ok ("hello", 4) ∧
        ZString.encodedLength spokenTexts 0x1b = .ok 4 ∧ 4 ≤ 2000) ∧
      (speakingAt 0x1a).Executes (withText 2 0x1b 5) .print ∧
      (speakingAt 0x1a).flow? = some .next ∧ (speakingAt 0x1a).TextEndsWith (withText 2 0x1b 5) ∧
      (speakingAt 0x1f).Executes (withText 3 0x20 3) .printRet ∧
      (speakingAt 0x1f).PrintsInline (withText 3 0x20 3) ∧
      (speakingAt 0x1f).flow? = none ∧ (speakingAt 0x1f).TextEndsWith (withText 3 0x20 3) := by
  have hd : ZString.decode spokenTexts 0x1b = .ok ("hello", 4) :=
    eq_ok_of_toOption (by decide +kernel)
  have he : (speakingAt 0x1a).Executes (withText 2 0x1b 5) .print :=
    ⟨rfl, eq_ok_of_toOption (by decide +kernel), rfl⟩
  have hflow : ((speakingAt 0x1a).following 0).flow? = some .next := by decide +kernel
  have he' : (speakingAt 0x1f).Executes (withText 3 0x20 3) .printRet :=
    ⟨rfl, eq_ok_of_toOption (by decide +kernel), rfl⟩
  have hp : (speakingAt 0x1f).PrintsInline (withText 3 0x20 3) :=
    ⟨[], _, _, rfl, printInline_eq_ok.mpr
      ⟨0x20, ("abc", 2), rfl, eq_ok_of_toOption (by decide +kernel), rfl⟩⟩
  have hprint := lengths_agree.2 (speakingAt 0x1a) _ .print (.inl rfl) he rfl
  have hret := lengths_agree.2 (speakingAt 0x1f) _ .printRet (.inr rfl) he' rfl
  exact ⟨⟨hd, (lengths_agree.1 _ _).1 _ _ hd⟩, he, hflow,
    hprint.2 (hprint.1 _ _ (step_following hflow)), he', hp, by decide +kernel, hret.2 hp⟩

end Session

end ZMachine
