import ZMachine.Proofs.Session.Bounds

/-!
# Steps and the version of their story

A machine knows the version of its story from the moment it is loaded. Calls and texts, however, go
by the first byte of memory as it is now, and a story can write there. As long as that byte is of
the version's scheme, every step works out what the version asks for; if it is not, a call may lead
elsewhere.

* `Session.StepsFor`           : the next step works out what a version asks for.
* `Session.KeepsScheme`        : the first byte is of the scheme of the machine's version.
* `Session.stepsFor_as_loaded` : such sessions, among those a story comes to, and pairs of them that
  differ in the first byte.
* `Session.forged_entry`       : a story that moves its routines.
-/

namespace ZMachine

open ZMachine.Action

/-! ## 1. Calls and texts -/

/-- A call of a routine, for a machine that works out the version's addresses. -/
theorem Machine.call_eq_called {m : Machine} {packed : Word} {rest : List Word}
    {store : Option UInt8} {pc : Nat} (h : m.memory.ResolvesFor m.version) (h₀ : packed ≠ 0) :
    (∃ m', call packed rest store m = .ok .called m' ∧ m'.pc = pc) ↔
      ∃ locals, startFor m.version m.memory packed = .ok (locals, pc) := by
  unfold call startFor
  rw [if_neg h₀, get_bind, ← h.routine]
  constructor
  · intro hc
    obtain ⟨m', hc, rfl⟩ := hc
    obtain ⟨addr, ha, hc⟩ := lift_bind_eq_ok.mp hc
    obtain ⟨⟨locals, pc⟩, hs, hc⟩ := lift_bind_eq_ok.mp hc
    cases hc
    exact ⟨locals, except_bind_eq_ok.mpr ⟨addr, ha, hs⟩⟩
  · intro hs
    obtain ⟨locals, hs⟩ := hs
    obtain ⟨addr, ha, hs⟩ := except_bind_eq_ok.mp hs
    exact ⟨_, lift_bind_eq_ok.mpr ⟨addr, ha, lift_bind_eq_ok.mpr ⟨(locals, pc), hs, rfl⟩⟩, rfl⟩

namespace Session

variable {H : Host} {s t : Session H} {image : Array UInt8} {version : UInt8}
  {i : Instruction} {packed : Word} {rest : List Word}

theorem printAt_eq_ok {addr : Nat} {u : Unit} :
    Handler.printAt addr s = .ok u t ↔
      ∃ p, s.decoder s.machine.memory addr = .ok p ∧ writeOutput p.1 s = .ok u t := by
  unfold Handler.printAt decodeText
  constructor
  · intro h
    obtain ⟨text, q, hd, h⟩ := bind_eq_ok.mp h
    rw [get_bind] at hd
    obtain ⟨p, hp, hd⟩ := lift_bind_eq_ok.mp hd
    cases hd
    exact ⟨p, hp, h⟩
  · intro h
    obtain ⟨p, hp, h⟩ := h
    refine bind_eq_ok.mpr ⟨p.1, s, ?_, h⟩
    rw [get_bind]
    exact lift_bind_eq_ok.mpr ⟨p, hp, rfl⟩

/-- The text at a packed address is looked up and written. -/
theorem printPaddr_eq_ok (h : s.machine.memory.ResolvesFor version) (hd : s.decoder = ZString.decode) :
    Handler.printPaddr i (packed :: rest) s = .ok .next t ↔
      ∃ text, ZString.textFor version s.machine.memory packed = .ok text ∧
        writeOutput text s = .ok () t := by
  have hp : Handler.printPaddr i (packed :: rest) s =
      (do
        let addr ← PackedAddress.text s.machine.memory packed
        Handler.printAt addr
        return .next : Exec H Flow) s := rfl
  rw [hp, h.text]
  unfold ZString.textFor
  constructor
  · intro hx
    obtain ⟨addr, ha, hx⟩ := lift_bind_eq_ok.mp hx
    obtain ⟨⟨⟩, q, hx, hq⟩ := bind_eq_ok.mp hx
    cases hq
    obtain ⟨p, hdec, hw⟩ := printAt_eq_ok.mp hx
    rw [hd, h.decode] at hdec
    exact ⟨p.1, except_bind_eq_ok.mpr ⟨addr, ha, except_bind_eq_ok.mpr ⟨p, hdec, rfl⟩⟩, hw⟩
  · intro hx
    obtain ⟨text, hx, hw⟩ := hx
    obtain ⟨addr, ha, hx⟩ := except_bind_eq_ok.mp hx
    obtain ⟨p, hdec, hx⟩ := except_bind_eq_ok.mp hx
    cases hx
    rw [← h.decode, ← hd] at hdec
    exact lift_bind_eq_ok.mpr
      ⟨addr, ha, bind_eq_ok.mpr ⟨(), t, printAt_eq_ok.mpr ⟨p, hdec, hw⟩, rfl⟩⟩

/-! ## 2. Steps -/

/-- What the next step works out from the version it works out for this one: the place where a
routine is entered, and the text at a packed address. -/
structure StepsFor (version : UInt8) (s : Session H) : Prop where
  resolves : s.machine.memory.ResolvesFor version
  called : ∀ {i packed rest m}, s.Executes i .call → s.Reads i (packed :: rest) m → packed ≠ 0 →
    ∀ pc, (∃ t, step s = .ok .called t ∧ t.machine.pc = pc) ↔
      ∃ locals, Machine.startFor version s.machine.memory packed = .ok (locals, pc)
  printed : ∀ {i packed rest m}, s.Executes i .printPaddr → s.Reads i (packed :: rest) m →
    s.decoder = ZString.decode → ∀ t, step s = .ok .next t ↔
      ∃ text, ZString.textFor version s.machine.memory packed = .ok text ∧
        writeOutput text (s.ready i m) = .ok () t

/-- **A step works out what the version of its machine asks for** if its memory does. -/
theorem stepsFor_of_resolves (h : s.machine.memory.ResolvesFor s.machine.version) :
    StepsFor s.machine.version s where
  resolves := h
  called {i packed rest m} he hr h₀ pc := by
    have hm : m.memory = s.machine.memory := hr.memory
    have hv : m.version = s.machine.version := hr.sameMake.version
    have hcall : (∃ m', Machine.call packed rest i.store m = .ok .called m' ∧ m'.pc = pc) ↔ _ :=
      Machine.call_eq_called (by rw [hm, hv]; exact h) h₀
    rw [hm, hv] at hcall
    rw [← hcall]
    constructor
    · intro hs
      obtain ⟨t, hs, rfl⟩ := hs
      obtain ⟨m', hm', rfl⟩ := onMachine_eq_ok.mp ((step_eq_ok_iff .called he hr nofun).mp hs)
      exact ⟨m', hm', rfl⟩
    · intro hc
      obtain ⟨m', hc, rfl⟩ := hc
      exact ⟨_, (step_eq_ok_iff .called he hr nofun).mpr (onMachine_eq_ok.mpr ⟨m', hc, rfl⟩), rfl⟩
  printed {i packed rest m} he hr hd t := by
    have hm : (s.ready i m).machine.memory = s.machine.memory := hr.memory
    rw [step_eq_ok_iff .next he hr nofun, ← hm]
    exact printPaddr_eq_ok (by rw [hm]; exact h) hd

/-- The first byte of memory is still of the scheme that the story's version is of. -/
def KeepsScheme (s : Session H) : Prop :=
  ∃ b, Header.version s.machine.memory = .ok b ∧ Header.scheme b = Header.scheme s.machine.version

theorem KeepsScheme.stepsFor (h : s.KeepsScheme) : StepsFor s.machine.version s := by
  obtain ⟨b, hb, hs⟩ := h
  exact stepsFor_of_resolves (Memory.resolvesFor_scheme hb hs)

/-- **The version a story is loaded with counts in every session it comes to**, as long as the first
byte keeps its scheme: every step works out what this version asks for. Two such sessions whose
memories differ in the first byte only find the same routines and the same texts. -/
theorem stepsFor_as_loaded {b : UInt8} (hH : H.KeepsSize) (hs : Reached image s)
    (ht : Reached image t) (hks : s.KeepsScheme) (hkt : t.KeepsScheme)
    (hm : t.machine.memory = s.machine.memory.setByte 0 b) :
    ∃ version, image[0]? = some version ∧ s.machine.version = version ∧ t.machine.version = version ∧
      StepsFor version s ∧ StepsFor version t ∧
      Memory.SameFor version s.machine.memory t.machine.memory := by
  have hvs := (sound_of_reached hH hs).version
  have hvt := (sound_of_reached hH ht).version
  have hv : t.machine.version = s.machine.version := Option.some.inj (hvt.symm.trans hvs)
  refine ⟨s.machine.version, hvs, rfl, hv, hks.stepsFor, hv ▸ hkt.stepsFor, ?_⟩
  rw [hm]
  exact Memory.sameFor_setFirst _ _ b

/-- A story in version 5 that calls a routine, writes the number of another version of its scheme to
the first byte, and calls the routine again. -/
def renumbering : Array UInt8 :=
  #[5, 0, 0, 0, 0, 0, 0, 0x40, 0, 0, 0, 0, 0, 0, 0, 0x40,
    0, 0, 0, 0, 0, 0, 0, 0, 0, 0, 0, 0, 0, 0, 0, 0,
    0, 0, 0, 0, 0, 0, 0, 0, 0, 0, 0, 0, 0, 0, 0, 0,
    0, 0, 0, 0, 0, 0, 0, 0, 0, 0, 0, 0, 0, 0, 0, 0,
    0x8f, 0, 0x14, 0xe2, 0x57, 0, 0, 4, 0x8f, 0, 0x14, 0xba, 0, 0, 0, 0,
    0, 0xb0]

/-- The moments of the two calls. -/
theorem renumbering_stepsFor :
    ∃ s t : Session Host.standard,
      Host.standard.KeepsSize ∧ Reached renumbering s ∧ Reached renumbering t ∧
      s.KeepsScheme ∧ t.KeepsScheme ∧ t.machine.memory = s.machine.memory.setByte 0 4 ∧
      t.machine.memory ≠ s.machine.memory ∧
      s.flow? = some .called ∧ t.flow? = some .called ∧
      ∃ version, renumbering[0]? = some version ∧ s.machine.version = version ∧
        t.machine.version = version ∧ StepsFor version s ∧ StepsFor version t ∧
        Memory.SameFor version s.machine.memory t.machine.memory := by
  have hload : (load renumbering ⟨[], []⟩ {} 0 : Except Fault (Session Host.standard)).isOk = true := by
    decide +kernel
  have hs : Reached renumbering ((started renumbering {}).following 0) := reached_started hload 0
  have ht : Reached renumbering ((started renumbering {}).following 3) := reached_started hload 3
  have hks : ((started renumbering {}).following 0).KeepsScheme :=
    ⟨5, eq_ok_of_toOption (by decide +kernel), by decide +kernel⟩
  have hkt : ((started renumbering {}).following 3).KeepsScheme :=
    ⟨4, eq_ok_of_toOption (by decide +kernel), by decide +kernel⟩
  have hm : ((started renumbering {}).following 3).machine.memory =
      ((started renumbering {}).following 0).machine.memory.setByte 0 4 := by
    decide +kernel
  exact ⟨_, _, Host.standard_keepsSize, hs, ht, hks, hkt, hm, by decide +kernel, by decide +kernel,
    by decide +kernel, stepsFor_as_loaded Host.standard_keepsSize hs ht hks hkt hm⟩

/-- A story in version 5 that writes a 3 to the first byte and then calls a routine. -/
def forging : Array UInt8 :=
  #[5, 0, 0, 0, 0, 0, 0, 0x40, 0, 0, 0, 0, 0, 0, 0, 0x40,
    0, 0, 0, 0, 0, 0, 0, 0, 0, 0, 0, 0, 0, 0, 0, 0,
    0, 0, 0, 0, 0, 0, 0, 0, 0, 0, 0, 0, 0, 0, 0, 0,
    0, 0, 0, 0, 0, 0, 0, 0, 0, 0, 0, 0, 0, 0, 0, 0,
    0xe2, 0x57, 0, 0, 3, 0x8f, 0, 0x28, 0xba, 0, 0, 0, 0, 0, 0, 0,
    0, 0xb1, 0, 0, 0, 0, 0, 0, 0, 0, 0, 0, 0, 0, 0, 0,
    0, 0, 0, 0, 0, 0, 0, 0, 0, 0, 0, 0, 0, 0, 0, 0,
    0, 0, 0, 0, 0, 0, 0, 0, 0, 0, 0, 0, 0, 0, 0, 0,
    0, 0, 0, 0, 0, 0, 0, 0, 0, 0, 0, 0, 0, 0, 0, 0,
    0, 0, 0, 0, 0, 0, 0, 0, 0, 0, 0, 0, 0, 0, 0, 0,
    0, 0xb0]

/-- The session with another first byte. -/
def withFirst (s : Session H) (b : UInt8) : Session H :=
  { s with machine.memory := s.machine.memory.setByte 0 b }

/-- **A byte that a story writes moves its routines**: the call enters the code at 0x51, where the
version it was loaded with, and the same session with that version in the first byte, has it at
0xa1. -/
theorem forged_entry :
    ∃ s : Session Host.standard, Reached forging s ∧ s.state = .running ∧ s.machine.version = 5 ∧
      s.operation? = some .call ∧
      (s.flow? = some .called ∧ (s.following 1).machine.pc = 0x51) ∧
      Machine.startFor 5 s.machine.memory 0x28 = .ok ([], 0xa1) ∧
      ((s.withFirst 5).flow? = some .called ∧ ((s.withFirst 5).following 1).machine.pc = 0xa1) ∧
      ¬ StepsFor 5 s := by
  have hs : Reached forging ((started forging {}).following 1) := reached_started (by decide +kernel) 1
  refine ⟨_, hs, by decide +kernel, by decide +kernel, by decide +kernel,
    ⟨by decide +kernel, by decide +kernel⟩, eq_ok_of_toOption (by decide +kernel),
    ⟨by decide +kernel, by decide +kernel⟩, fun h => ?_⟩
  have hr := congrArg Except.toOption (h.resolves.routine 0x28)
  exact absurd hr (by decide +kernel)

end Session

end ZMachine
