import ZMachine.Proofs.Decoding
import ZMachine.Proofs.Snapshot
import ZMachine.Proofs.StoryVersion

/-!
# Computations without defects

A defect is the failure of a look-up that the code before it should have made safe: a character of
an alphabet, a slot among the locals, the operands behind the first, a part of the story as loaded.
Any other failure is one that a story can bring about, and is allowed here.

* `Clean`            : a computation without a state that meets no defect.
* `Action.CleanAt`   : a computation that meets none from a given start; `Action.Careful` from any.
* `ZString.clean_decode` : text is decoded without a defect while the first byte of memory is at
  most 8.
* `Snapshot.clean_capture`, `Instruction.clean_decode` and their like : the other readers of memory.
-/

namespace ZMachine

/-! ## 1. Without a state -/

section Clean

variable {α β : Type}

/-- The computation does not end in a defect. -/
def Clean (x : Except Fault α) : Prop :=
  ∀ site, x ≠ .error (.defect site)

theorem clean_ok (a : α) : Clean (.ok a) :=
  nofun

theorem clean_error {e : Fault} (h : ∀ site, e ≠ .defect site) : Clean (.error e : Except Fault α) := by
  intro site hs
  cases hs
  exact h site rfl

/-- A computation whose failures are all accesses beyond memory. -/
theorem Clean.of_outOfRange {x : Except Fault α} (h : ∀ {e}, x = .error e → e.IsOutOfRange) :
    Clean x := by
  intro site hs
  obtain ⟨addr, size, he⟩ := h hs
  cases he

/-- A sequence meets no defect if its first step does not, nor the rest after it. -/
theorem Clean.bind {x : Except Fault α} {f : α → Except Fault β} (hx : Clean x)
    (hf : ∀ a, x = .ok a → Clean (f a)) : Clean (x >>= f) := by
  cases x with
  | ok a => exact hf a rfl
  | error e =>
      intro site hs
      cases hs
      exact hx site rfl

theorem Clean.map {x : Except Fault α} (hx : Clean x) (f : α → β) :
    Clean (do return f (← x)) :=
  hx.bind fun _ _ => clean_ok _

theorem Clean.ite {x y : Except Fault α} {c : Prop} [Decidable c] (hx : c → Clean x)
    (hy : ¬ c → Clean y) : Clean (if c then x else y) := by
  by_cases h : c
  · rw [if_pos h]
    exact hx h
  · rw [if_neg h]
    exact hy h

end Clean

/-! ## 2. With a state -/

namespace Action

variable {σ α β : Type}

/-- From the given start the computation does not end in a defect. -/
def CleanAt (s : σ) (x : Action σ α) : Prop :=
  ∀ site t, x s ≠ .error (.defect site) t

/-- The computation meets no defect, from any start. -/
abbrev Careful (x : Action σ α) : Prop :=
  ∀ s, CleanAt s x

/-- **A sequence meets no defect exactly if its first step does not, nor the rest from where that
leads.** -/
theorem cleanAt_bind {x : Action σ α} {f : α → Action σ β} {s : σ} :
    CleanAt s (x >>= f) ↔ CleanAt s x ∧ ∀ a t, x s = .ok a t → CleanAt t (f a) := by
  constructor
  · intro h
    refine ⟨fun site t hx => ?_, fun a t hx site u hf => ?_⟩
    · exact h site t (bind_eq_error.mpr (.inl hx))
    · exact h site u (bind_eq_error.mpr (.inr ⟨a, t, hx, hf⟩))
  · rintro ⟨hx, hf⟩ site u h
    rcases bind_eq_error.mp h with h | ⟨a, t, h, h'⟩
    · exact hx site u h
    · exact hf a t h site u h'

theorem CleanAt.bind {x : Action σ α} {f : α → Action σ β} {s : σ} (hx : CleanAt s x)
    (hf : ∀ a, Careful (f a)) : CleanAt s (x >>= f) :=
  cleanAt_bind.mpr ⟨hx, fun a t _ => hf a t⟩

/-- After a step that leaves the state alone, the rest starts where the step did. -/
theorem CleanAt.bind_reads {x : Action σ α} {f : α → Action σ β} {s : σ} (hx : CleanAt s x)
    (hr : Keeps Eq x) (hf : ∀ a, CleanAt s (f a)) : CleanAt s (x >>= f) :=
  cleanAt_bind.mpr ⟨hx, fun a _ ht => hr.ok ht ▸ hf a⟩

theorem CleanAt.ite {x y : Action σ α} {s : σ} {c : Prop} [Decidable c] (hx : c → CleanAt s x)
    (hy : ¬ c → CleanAt s y) : CleanAt s (if c then x else y) := by
  by_cases h : c
  · rw [if_pos h]
    exact hx h
  · rw [if_neg h]
    exact hy h

theorem careful_pure (a : α) : Careful (pure a : Action σ α) :=
  nofun

theorem careful_throw {e : Fault} (h : ∀ site, e ≠ .defect site) :
    Careful (throw e : Action σ α) := by
  intro s site t hs
  cases hs
  exact h site rfl

theorem careful_get : Careful (get : Action σ σ) :=
  nofun

theorem careful_set (t : σ) : Careful (set t : Action σ PUnit) :=
  nofun

theorem careful_modify (f : σ → σ) : Careful (modify f : Action σ PUnit) :=
  nofun

theorem careful_lift {x : Except Fault α} (h : Clean x) : Careful (liftM x : Action σ α) := by
  intro s site t hs
  exact h site (lift_eq_error.mp hs).1

theorem Careful.bind {x : Action σ α} {f : α → Action σ β} (hx : Careful x)
    (hf : ∀ a, Careful (f a)) : Careful (x >>= f) :=
  fun s => (hx s).bind hf

/-- What follows the reading of the state may be taken to know it. -/
theorem careful_bind_get {f : σ → Action σ β} (h : ∀ s, CleanAt s (f s)) : Careful (get >>= f) :=
  h

theorem Careful.ite {x y : Action σ α} {c : Prop} [Decidable c] (hx : c → Careful x)
    (hy : ¬ c → Careful y) : Careful (if c then x else y) :=
  fun s => .ite (fun h => hx h s) fun h => hy h s

end Action

/-! ## 3. Memory and header -/

namespace Memory

variable (m : Memory)

theorem clean_check (addr width : Nat) : Clean (m.check addr width) :=
  .ite (fun _ => clean_ok _) fun _ => clean_error nofun

theorem clean_readByte (addr : Nat) : Clean (m.readByte addr) :=
  .of_outOfRange readByte_error

theorem clean_readWord (addr : Nat) : Clean (m.readWord addr) :=
  .of_outOfRange readWord_error

theorem clean_slice (addr length : Nat) : Clean (m.slice addr length) :=
  (m.clean_check addr length).bind fun _ _ => clean_ok _

end Memory

namespace Header

variable (m : Memory)

theorem clean_versionWith (field : HeaderField) (minimum : UInt8) :
    Clean (versionWith m field minimum) :=
  (m.clean_readByte 0).bind fun _ _ => .ite (fun _ => clean_error nofun) fun _ => clean_ok _

theorem clean_fileLength : Clean (fileLength m) :=
  (clean_versionWith m _ _).bind fun _ _ => (m.clean_readWord _).bind fun _ _ => clean_ok _

theorem clean_checksum : Clean (checksum m) :=
  (clean_versionWith m _ _).bind fun _ _ => m.clean_readWord _

theorem clean_routinesOffset : Clean (routinesOffset m) :=
  (clean_versionWith m _ _).bind fun _ _ => m.clean_readWord _

theorem clean_stringsOffset : Clean (stringsOffset m) :=
  (clean_versionWith m _ _).bind fun _ _ => m.clean_readWord _

end Header

namespace PackedAddress

theorem clean_unit (version : UInt8) : Clean (unit version) := by
  refine .ite (fun _ => clean_error nofun) fun _ => ?_
  refine .ite (fun _ => clean_ok _) fun _ => ?_
  refine .ite (fun _ => clean_ok _) fun _ => ?_
  exact .ite (fun _ => clean_ok _) fun _ => clean_error nofun

theorem clean_expand {m : Memory} {offset : Memory → Except Fault Word} (packed : Word)
    (h : Clean (offset m)) : Clean (expand m packed offset) := by
  refine (m.clean_readByte 0).bind fun version _ => ?_
  refine (clean_unit version).bind fun scale _ => ?_
  exact .ite (fun _ => h.bind fun _ _ => clean_ok _) fun _ => clean_ok _

theorem clean_routine (m : Memory) (packed : Word) : Clean (routine m packed) :=
  clean_expand packed (Header.clean_routinesOffset m)

theorem clean_text (m : Memory) (packed : Word) : Clean (text m packed) :=
  clean_expand packed (Header.clean_stringsOffset m)

end PackedAddress

theorem Instruction.clean_decode (m : Memory) (addr : Nat) (version : UInt8) :
    Clean (Instruction.decode m addr version) :=
  .of_outOfRange decode_error

/-! ## 4. Text -/

namespace ZString

theorem Alphabet.length_chars (version : UInt8) (alphabet : Alphabet) :
    (alphabet.chars version).length = 26 := by
  cases alphabet with
  | small => rfl
  | capital => rfl
  | symbol =>
      by_cases h : version = 1
      · exact (congrArg List.length (if_pos h)).trans rfl
      · exact (congrArg List.length (if_neg h)).trans rfl

/-- An alphabet has a character for the z-characters from 6 to 31, and for no other. -/
theorem Alphabet.isSome_char? {version z : UInt8} {alphabet : Alphabet} :
    (alphabet.char? version z).isSome = true ↔ 6 ≤ z ∧ z < 32 := by
  have h₆ : 6 ≤ z ↔ 6 ≤ z.toNat := UInt8.le_iff_toNat_le
  have h₃₂ : z < 32 ↔ z.toNat < 32 := UInt8.lt_iff_toNat_lt
  unfold char?
  by_cases h : z < 6
  · rw [if_pos h]
    exact ⟨nofun, fun hz => absurd h (UInt8.not_lt.mpr hz.1)⟩
  · rw [if_neg h, isSome_getElem?, length_chars, h₆, h₃₂]
    have := h₆.mp (UInt8.not_lt.mp h)
    omega

theorem lt_of_mem_zcharsOf {w : Word} {z : UInt8} (h : z ∈ zcharsOf w) : z < 32 := by
  have hmask (v : Word) : (v &&& 0x1f).toUInt8 < 32 := by
    rw [UInt8.lt_iff_toNat_lt, UInt16.toNat_toUInt8, UInt16.toNat_and]
    have : v.toNat &&& 31 ≤ 31 := Nat.and_le_right
    exact Nat.lt_of_le_of_lt (Nat.mod_le _ _) (Nat.lt_succ_of_le this)
  simp only [zcharsOf, List.mem_cons, List.not_mem_nil, or_false] at h
  rcases h with rfl | rfl | rfl
  · exact hmask _
  · exact hmask _
  · exact hmask w

theorem lt_of_mem_collectWords {m : Memory} {start : Nat} {z : UInt8} :
    ∀ {words addr : Nat} {p : List UInt8 × Nat}, collectWords m start words addr = .ok p →
      z ∈ p.1 → z < 32
  | words + 1, addr, p, h, hz => by
      obtain ⟨w, -, h⟩ := Action.except_bind_eq_ok.mp h
      split at h
      · cases h
        exact lt_of_mem_zcharsOf hz
      · obtain ⟨⟨zchars, length⟩, hr, h⟩ := Action.except_bind_eq_ok.mp h
        cases h
        rcases List.mem_append.mp hz with hz | hz
        · exact lt_of_mem_zcharsOf hz
        · exact lt_of_mem_collectWords hr hz

theorem clean_collectWords (m : Memory) (start : Nat) :
    ∀ words addr : Nat, Clean (collectWords m start words addr)
  | 0, _ => clean_error nofun
  | words + 1, addr => by
      refine (m.clean_readWord addr).bind fun w _ => ?_
      refine .ite (fun _ => clean_ok _) fun _ => ?_
      exact (clean_collectWords m start words (addr + 2)).bind fun _ _ => clean_ok _

/-- Up to version 8 a z-character below 6 is a space, a line end, a shift or an abbreviation. -/
theorem six_le {version z : UInt8} (hv : version ≤ 8) (hb : abbreviationBank? version z = none)
    (h₀ : z ≠ 0) (h₁ : z ≠ 1) (hs : ¬ (z ≤ 5 ∧ version ≤ 2)) (h₄ : z ≠ 4) (h₅ : z ≠ 5) : 6 ≤ z := by
  unfold abbreviationBank? at hb
  simp only [UInt8.le_iff_toNat_le, ne_eq, ← UInt8.toNat_inj] at *
  simp only [UInt8.reduceToNat] at *
  by_cases h₂ : version.toNat = 2
  · omega
  · rw [if_neg h₂] at hb
    split at hb
    · cases hb
    · omega

/-- **The alphabets are only looked up for z-characters that they have.** -/
theorem clean_scan {version : UInt8} {abbreviation : Nat → Except Fault (List Char)}
    (hv : version ≤ 8) (ha : ∀ number, Clean (abbreviation number)) (locked current : Alphabet)
    (zchars : List UInt8) (hz : ∀ z ∈ zchars, z < 32) :
    Clean (scan version abbreviation locked current zchars) := by
  fun_induction scan version abbreviation locked current zchars with
  | case1 | case2 | case10 => exact clean_ok _
  | case3 _ _ _ _ _ _ _ ih =>
      refine (ha _).bind fun text _ => ?_
      exact (ih fun z h => hz z (.tail _ (.tail _ h))).map _
  | case4 _ _ _ _ ih | case5 _ _ _ _ _ ih => exact (ih fun z h => hz z (.tail _ h)).map _
  | case6 _ _ _ _ _ _ _ _ _ ih | case7 _ _ _ _ _ _ _ ih | case8 _ _ _ _ _ _ _ _ ih =>
      exact ih fun z h => hz z (.tail _ h)
  | case9 _ _ _ _ _ _ _ _ _ _ _ _ _ _ _ ih =>
      exact (ih fun z h => hz z (.tail _ (.tail _ (.tail _ h)))).map _
  | case11 _ _ _ _ _ _ _ _ _ _ _ _ _ ih => exact (ih fun z h => hz z (.tail _ h)).map _
  | case12 _ current z rest hb h₀ h₁ hs h₄ h₅ _ hc =>
      have hsome : (current.char? version z).isSome = true :=
        Alphabet.isSome_char?.mpr ⟨six_le hv hb h₀ h₁ hs h₄ h₅, hz z (.head _)⟩
      rw [hc] at hsome
      cases hsome

theorem clean_decodeAt {m : Memory} {version : UInt8} (hv : version ≤ 8) (table : Nat) :
    ∀ depth addr : Nat, Clean (decodeAt m version table depth addr)
  | 0, _ => clean_error nofun
  | depth + 1, addr => by
      refine (clean_collectWords m addr maxWords addr).bind fun p hp => ?_
      obtain ⟨zchars, length⟩ := p
      refine .bind (clean_scan hv (fun number => ?_) .small .small zchars
        fun z hz => lt_of_mem_collectWords hp hz) fun _ _ => clean_ok _
      refine (m.clean_readWord _).bind fun target _ => ?_
      exact (clean_decodeAt hv table depth _).bind fun _ _ => clean_ok _

/-- **Text is decoded without a defect** while the first byte of memory is at most 8. -/
theorem clean_decode {m : Memory} (h : ∀ b, Header.version m = .ok b → b ≤ 8) (addr : Nat) :
    Clean (ZString.decode m addr) := by
  refine (m.clean_readByte 0).bind fun version hv => ?_
  refine (m.clean_readWord _).bind fun table _ => ?_
  exact (clean_decodeAt (h version hv) table.toNat maxDepth addr).bind fun _ _ => clean_ok _

-- With a greater first byte the z-characters 2 and 3 mean nothing, and are looked up.
example : ZString.decode ⟨#[9] ++ Array.replicate 63 0 ++ #[0x84, 0x42]⟩ 64 =
    .error (.defect .alphabet) := by
  rfl

end ZString

/-! ## 5. Snapshots -/

namespace Compression

theorem clean_compress (current story : List UInt8) : Clean (compress current story) :=
  .ite (fun _ => clean_ok _) fun _ => clean_error nofun

theorem clean_decompress (stored story : List UInt8) : Clean (decompress stored story) := by
  fun_induction decompress stored story with
  | case1 => exact clean_ok _
  | case2 | case4 | case5 => exact clean_error nofun
  | case3 _ _ _ _ _ ih | case6 _ _ _ _ _ ih => exact ih.map _

end Compression

namespace Snapshot

theorem clean_dynamicSize (memory : Memory) (story : Array UInt8) :
    Clean (dynamicSize memory story) := by
  refine (memory.clean_readWord _).bind fun base _ => ?_
  exact .ite (fun _ => clean_error nofun) fun _ => clean_ok _

/-- **The story holds the part that a snapshot is compared with**, since its size has been
checked. -/
theorem clean_storyPart {memory : Memory} {story : Array UInt8} {size : Nat}
    (h : dynamicSize memory story = .ok size) : Clean (storyPart story size) := by
  obtain ⟨base, -, rfl, hle, -⟩ := dynamicSize_eq_ok.mp h
  exact .ite (fun _ => clean_ok _) fun hn => absurd hle hn

theorem clean_capture (m : Machine) (story : Array UInt8) (pc : Nat) :
    Clean (capture m story pc) := by
  refine (clean_dynamicSize _ _).bind fun size hsize => ?_
  refine (m.memory.clean_slice 0 size).bind fun current _ => ?_
  refine (clean_storyPart hsize).bind fun part _ => ?_
  exact (Compression.clean_compress _ _).bind fun _ _ => clean_ok _

end Snapshot

end ZMachine
