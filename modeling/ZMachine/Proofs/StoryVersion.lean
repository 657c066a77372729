import ZMachine.Machine.Control
import ZMachine.Proofs.Action
import ZMachine.Proofs.Memory
import ZMachine.ZString

/-!
# What depends on the version of a story

Packed addresses, texts, and the length and checksum of the file depend on the version of the story.
They are worked out from memory, for the version that the first byte names at the time. What a given
version asks for is the same whatever that byte says.

* `PackedAddress.addressFor`, `Machine.startFor`, `ZString.textFor`, `Header.fileLengthFor` and
  `Header.checksumFor` : what a version asks for.
* `Header.scheme`             : versions with the same addresses, texts, length and checksum.
* `Memory.ResolvesFor`        : memories from which these are worked out for a version.
* `Memory.resolvesFor_scheme` : among them are all whose first byte is of the version's scheme.
* `Memory.sameFor_setFirst`   : what a version asks for does not depend on the first byte.
-/

namespace ZMachine

open ZMachine.Action

/-! ## 1. Packed addresses and header fields -/

namespace PackedAddress

variable {m : Memory} {version : UInt8}

/-- The address a packed word stands for in a version; `field` is the header word that counts in
versions 6 and 7. -/
def addressFor (version : UInt8) (m : Memory) (field : Nat) (packed : Word) : Except Fault Nat := do
  let base := packed.toNat * (← unit version)
  if version = 6 ∨ version = 7 then
    return base + 8 * (← m.readWord field).toNat
  else
    return base

theorem expand_eq {offset : Memory → Except Fault Word} {field : Nat}
    (h : Header.version m = .ok version)
    (ho : version = 6 ∨ version = 7 → offset m = m.readWord field) (packed : Word) :
    expand m packed offset = addressFor version m field packed := by
  unfold expand addressFor
  rw [h]
  show (unit version >>= _) = (unit version >>= _)
  refine bind_congr fun n => ?_
  by_cases hv : version = 6 ∨ version = 7
  · rw [if_pos hv, if_pos hv, ho hv]
  · rw [if_neg hv, if_neg hv]

/-- Versions 1 to 8 are known, and their packed addresses count by two bytes at least. -/
theorem unit_eq_ok {n : Nat} (h : unit version = .ok n) : 1 ≤ version ∧ version ≤ 8 ∧ 2 ≤ n := by
  unfold unit at h
  rw [UInt8.le_iff_toNat_le, UInt8.le_iff_toNat_le]
  show 1 ≤ version.toNat ∧ version.toNat ≤ 8 ∧ 2 ≤ n
  split at h
  · cases h
  · rename_i h₀
    have hpos : version.toNat ≠ 0 := fun hz => h₀ (UInt8.toNat_inj.mp hz)
    split at h
    · rename_i h₃
      have hle : version.toNat ≤ 3 := UInt8.le_iff_toNat_le.mp h₃
      cases h
      omega
    · split at h
      · rename_i h₇
        have hle : version.toNat ≤ 7 := UInt8.le_iff_toNat_le.mp h₇
        cases h
        omega
      · split at h
        · rename_i h₈
          cases h
          rw [h₈]
          decide
        · cases h

/-- Only the packed address 0 can stand for the start of memory. -/
theorem addressFor_ne_zero {field addr : Nat} {packed : Word}
    (h : addressFor version m field packed = .ok addr) (h₀ : packed ≠ 0) : addr ≠ 0 := by
  obtain ⟨n, hn, h⟩ := except_bind_eq_ok.mp h
  have hpos : 0 < packed.toNat * n := by
    have hn := (unit_eq_ok hn).2.2
    have hp : packed.toNat ≠ 0 := fun he => h₀ (UInt16.toNat_inj.mp he)
    exact Nat.mul_pos (Nat.pos_of_ne_zero hp) (by omega)
  split at h
  · obtain ⟨w, -, h⟩ := except_bind_eq_ok.mp h
    cases h
    omega
  · cases h
    omega

end PackedAddress

namespace Header

variable {m : Memory} {version : UInt8}

/-- The declared length of a story of a version. -/
def fileLengthFor (version : UInt8) (m : Memory) : Except Fault Nat :=
  if version < 3 then .error (.unsupportedVersion .fileLength 3 version)
  else do
    let units ← m.readWord 0x1a
    return units.toNat * lengthUnit version

/-- The declared checksum of a story of a version. -/
def checksumFor (version : UInt8) (m : Memory) : Except Fault Word :=
  if version < 3 then .error (.unsupportedVersion .checksum 3 version) else m.readWord 0x1c

theorem versionWith_bind {α : Type} (h : Header.version m = .ok version)
    (field : HeaderField) (minimum : UInt8) (f : UInt8 → Except Fault α) :
    (versionWith m field minimum >>= f) =
      if version < minimum then .error (.unsupportedVersion field minimum version)
      else f version := by
  unfold versionWith
  rw [h]
  show ((if version < minimum then .error _ else .ok version) >>= f) = _
  by_cases hv : version < minimum
  · rw [if_pos hv, if_pos hv]
    rfl
  · rw [if_neg hv, if_neg hv]
    rfl

/-- In versions 6 and 7 the two offset fields can be read. -/
theorem offset_eq (h : Header.version m = .ok version)
    (hv : version = 6 ∨ version = 7) (field : HeaderField) (addr : Nat) :
    (do let _ ← versionWith m field 6; m.readWord addr) = m.readWord addr := by
  rw [versionWith_bind h, if_neg]
  rcases hv with rfl | rfl <;> decide

/-- The first of the versions that have the addresses, texts, length and checksum of a version:
these are the same in 4 and 5, and in 6 and 7. -/
def scheme (version : UInt8) : UInt8 :=
  if version = 5 then 4 else if version = 7 then 6 else version

theorem eq_of_scheme {α : Type} {f : UInt8 → α} (h₄ : f 4 = f 5) (h₆ : f 6 = f 7)
    {version' : UInt8} (h : scheme version = scheme version') : f version = f version' := by
  have hf (v : UInt8) : f (scheme v) = f v := by
    unfold scheme
    by_cases hv : v = 5
    · rw [if_pos hv, hv, h₄]
    · by_cases hv' : v = 7
      · rw [if_neg hv, if_pos hv', hv', h₆]
      · rw [if_neg hv, if_neg hv']
  rw [← hf version, h, hf version']

end Header

/-! ## 2. Strings and routines -/

namespace ZString

/-- The text of the string at an address, and the bytes it takes up, in a story of a version. -/
def decodeFor (version : UInt8) (m : Memory) (addr : Nat) : Except Fault (String × Nat) := do
  let table ← Header.abbreviations m
  let (text, length) ← decodeAt m version table.toNat maxDepth addr
  return (String.ofList text, length)

/-- The abbreviations that a row of z-characters may refer to, by any two neighbours in it. -/
def references (version : UInt8) : List UInt8 → List Nat
  | z :: index :: rest =>
      match abbreviationBank? version z with
      | some bank => (bank * 32 + index.toNat) :: references version (index :: rest)
      | none => references version (index :: rest)
  | _ => []

theorem references_subset (version z : UInt8) (rest : List UInt8) :
    references version rest ⊆ references version (z :: rest) := by
  cases rest with
  | nil => exact List.nil_subset _
  | cons index rest =>
      rw [references]
      split
      · exact List.subset_cons_self _ _
      · exact List.Subset.refl _

/-- A row of z-characters has the same text in two versions with the same abbreviations, shifts and
alphabets, if the abbreviations it may refer to have the same text. -/
theorem scan_congr {version version' : UInt8}
    {abbreviation abbreviation' : Nat → Except Fault (List Char)}
    (hb : ∀ z, abbreviationBank? version' z = abbreviationBank? version z)
    (hs : version' ≤ 2 ↔ version ≤ 2)
    (ha : ∀ (a : Alphabet) z, a.char? version' z = a.char? version z)
    {zchars : List UInt8} (h : ∀ n ∈ references version zchars, abbreviation' n = abbreviation n)
    (locked current : Alphabet) :
    scan version' abbreviation' locked current zchars =
      scan version abbreviation locked current zchars := by
  have hrest {z : UInt8} {rest : List UInt8}
      (h : ∀ n ∈ references version (z :: rest), abbreviation' n = abbreviation n) :
      ∀ n ∈ references version rest, abbreviation' n = abbreviation n :=
    fun n hn => h n (references_subset version z rest hn)
  -- Along the branches that the text takes in the one version, the other takes the same.
  fun_induction scan version abbreviation locked current zchars with
  | case1 locked current => rfl
  | case2 locked current z bank hz =>
      rw [scan.eq_def version']
      simp only [hb, hz]
  | case3 locked current z bank hz index rest ih =>
      have hn : abbreviation' (bank * 32 + index.toNat) = abbreviation (bank * 32 + index.toNat) := by
        refine h _ ?_
        rw [references, hz]
        exact List.mem_cons_self
      rw [scan.eq_def version']
      simp only [hb, hz, hn, ih (hrest (hrest h))]
  | case4 locked current rest hz ih =>
      rw [scan.eq_def version']
      simp only [hb, hz, ih (hrest h), ↓reduceIte]
  | case5 locked current rest hz h₀ ih =>
      rw [scan.eq_def version']
      simp only [hb, hz, h₀, ih (hrest h), ↓reduceIte]
  | case6 locked current z rest hz h₀ h₁ h₂ shifted ih =>
      rw [scan.eq_def version']
      simp only [hb, hs, hz, h₀, h₁, if_pos h₂, ↓reduceIte]
      exact ih (hrest h)
  | case7 locked current rest hz h₀ h₁ h₂ ih =>
      rw [scan.eq_def version']
      simp only [hb, hs, hz, h₀, h₁, h₂, ih (hrest h), ↓reduceIte]
  | case8 locked current rest hz h₀ h₁ h₂ h₄ ih =>
      rw [scan.eq_def version']
      simp only [hb, hs, hz, h₀, h₁, h₂, h₄, ih (hrest h), ↓reduceIte]
  | case9 locked current z hz h₀ h₁ h₂ h₄ h₅ h₆ high low rest code c ih =>
      obtain ⟨rfl, rfl⟩ := h₆
      rw [scan.eq_def version']
      simp only [hb, hs, hz, h₂, ih (hrest (hrest (hrest h))), ↓reduceIte, and_self]
      rfl
  | case10 locked current z rest hz h₀ h₁ h₂ h₄ h₅ h₆ hr =>
      obtain ⟨rfl, rfl⟩ := h₆
      rw [scan.eq_def version']
      simp only [hb, hs, hz, h₂, ↓reduceIte, and_self]
      rfl
  | case11 locked current z rest hz h₀ h₁ h₂ h₄ h₅ h₆ c hc ih =>
      rw [scan.eq_def version']
      simp only [hb, hs, ha, hz, h₀, h₁, h₂, h₄, h₅, h₆, hc, ih (hrest h), ↓reduceIte]
  | case12 locked current z rest hz h₀ h₁ h₂ h₄ h₅ h₆ hc =>
      rw [scan.eq_def version']
      simp only [hb, hs, ha, hz, h₀, h₁, h₂, h₄, h₅, h₆, hc, ↓reduceIte]

/-- From version 3 on all versions read the same text. -/
theorem decodeAt_congr (version version' : UInt8) (hv : 3 ≤ version ∧ version ≤ 8)
    (hv' : 3 ≤ version' ∧ version' ≤ 8) (m : Memory) (table depth addr : Nat) :
    decodeAt m version' table depth addr = decodeAt m version table depth addr := by
  have hne {v early : UInt8} (h : 3 ≤ v) (he : early < 3) : v ≠ early := by
    rintro rfl
    exact UInt8.not_le.mpr he h
  have hb (z : UInt8) : abbreviationBank? version' z = abbreviationBank? version z := by
    unfold abbreviationBank?
    rw [if_neg (hne hv.1 (by decide)), if_neg (hne hv'.1 (by decide))]
    simp only [hv, hv', true_and]
  have hs : version' ≤ 2 ↔ version ≤ 2 :=
    iff_of_false (fun h => absurd (UInt8.le_trans hv'.1 h) (by decide))
      (fun h => absurd (UInt8.le_trans hv.1 h) (by decide))
  have ha (a : Alphabet) (z : UInt8) : a.char? version' z = a.char? version z := by
    have hc : a.chars version' = a.chars version := by
      cases a with
      | small => rfl
      | capital => rfl
      | symbol =>
          unfold Alphabet.chars
          rw [if_neg (hne hv'.1 (by decide)), if_neg (hne hv.1 (by decide))]
    unfold Alphabet.char?
    rw [hc]
  induction depth generalizing addr with
  | zero => rfl
  | succ depth ih =>
      unfold decodeAt
      simp only [ih, scan_congr hb hs ha fun _ _ => rfl]

theorem decode_eq {m : Memory} {version : UInt8} (h : Header.version m = .ok version) (addr : Nat) :
    decode m addr = decodeFor version m addr := by
  unfold decode
  rw [h]
  rfl

/-- The text of the string at a packed address in a story of a version. -/
def textFor (version : UInt8) (m : Memory) (packed : Word) : Except Fault String := do
  let addr ← PackedAddress.addressFor version m 0x2a packed
  let (text, _) ← decodeFor version m addr
  return text

end ZString

/-- The locals of the routine at a packed address, and where its code starts, in a story of a
version. -/
def Machine.startFor (version : UInt8) (m : Memory) (packed : Word) :
    Except Fault (List Word × Nat) := do
  let addr ← PackedAddress.addressFor version m 0x28 packed
  routineStart m version addr

/-! ## 3. What is worked out from memory -/

namespace Memory

open PackedAddress Header

variable {m : Memory} {version version' : UInt8}

/-- What depends on the version is worked out for this one. -/
structure ResolvesFor (version : UInt8) (m : Memory) : Prop where
  routine : ∀ packed, PackedAddress.routine m packed = PackedAddress.addressFor version m 0x28 packed
  text : ∀ packed, PackedAddress.text m packed = PackedAddress.addressFor version m 0x2a packed
  decode : ∀ addr, ZString.decode m addr = ZString.decodeFor version m addr
  fileLength : Header.fileLength m = Header.fileLengthFor version m
  checksum : Header.checksum m = Header.checksumFor version m

/-- It is worked out for the version that the first byte names. -/
theorem resolvesFor_first (h : Header.version m = .ok version) : m.ResolvesFor version where
  routine := expand_eq h fun hv => offset_eq h hv .routinesOffset 0x28
  text := expand_eq h fun hv => offset_eq h hv .stringsOffset 0x2a
  decode := ZString.decode_eq h
  fileLength := versionWith_bind h .fileLength 3 _
  checksum := versionWith_bind h .checksum 3 _

/-- **It is worked out for every version in the scheme of the first byte.** -/
theorem resolvesFor_scheme (h : Header.version m = .ok version')
    (hs : scheme version' = scheme version) : m.ResolvesFor version := by
  have hr := resolvesFor_first h
  have haddress (field : Nat) (packed : Word) :
      addressFor version' m field packed = addressFor version m field packed :=
    eq_of_scheme (f := fun v => addressFor v m field packed) rfl rfl hs
  have hdecode (addr : Nat) :
      ZString.decodeFor version' m addr = ZString.decodeFor version m addr := by
    refine eq_of_scheme (f := fun v => ZString.decodeFor v m addr) ?_ ?_ hs
    · unfold ZString.decodeFor
      simp only [ZString.decodeAt_congr 5 4 (by decide) (by decide)]
    · unfold ZString.decodeFor
      simp only [ZString.decodeAt_congr 7 6 (by decide) (by decide)]
  exact
    { routine := fun packed => (hr.routine packed).trans (haddress 0x28 packed)
      text := fun packed => (hr.text packed).trans (haddress 0x2a packed)
      decode := fun addr => (hr.decode addr).trans (hdecode addr)
      fileLength := hr.fileLength.trans
        (eq_of_scheme (f := fun v => fileLengthFor v m) rfl rfl hs)
      checksum := hr.checksum.trans (eq_of_scheme (f := fun v => checksumFor v m) rfl rfl hs) }

/-! ## 4. Memories that differ in the first byte -/

variable {b : UInt8}

theorem readWord_setFirst {a : Nat} (h : a ≠ 0) : (m.setByte 0 b).readWord a = m.readWord a :=
  readWord_setByte_of_ne h (Nat.succ_ne_zero a)

theorem addressFor_setFirst {field : Nat} (h : field ≠ 0) (packed : Word) :
    addressFor version (m.setByte 0 b) field packed = addressFor version m field packed := by
  unfold addressFor
  rw [readWord_setFirst h]

theorem readWords_setFirst (count : Nat) {addr : Nat} (h : addr ≠ 0) :
    Machine.readWords (m.setByte 0 b) addr count = Machine.readWords m addr count := by
  induction count generalizing addr with
  | zero => rfl
  | succ count ih =>
      unfold Machine.readWords
      rw [readWord_setFirst h, ih (by omega)]

theorem routineStart_setFirst {addr : Nat} (h : addr ≠ 0) :
    Machine.routineStart (m.setByte 0 b) version addr = Machine.routineStart m version addr := by
  unfold Machine.routineStart Machine.localCount
  rw [readByte_setByte_of_ne h]
  simp only [readWords_setFirst _ (Nat.succ_ne_zero addr)]

end Memory

namespace ZString

/-- The first byte of memory is no part of the string at an address, nor of the abbreviations in it
up to the given number of levels. -/
def ApartAt (version : UInt8) (m : Memory) (table : Nat) : Nat → Nat → Prop
  | 0, _ => True
  | depth + 1, addr =>
      addr ≠ 0 ∧ ∀ zchars length, collect m addr = .ok (zchars, length) →
        ∀ number ∈ references version zchars, table + number * 2 ≠ 0 ∧
          ∀ target, m.readWord (table + number * 2) = .ok target →
            ApartAt version m table depth (target.toNat * 2)

/-- The first byte of memory is no part of the string at an address. -/
def Apart (version : UInt8) (m : Memory) (addr : Nat) : Prop :=
  ∀ table, Header.abbreviations m = .ok table → ApartAt version m table.toNat maxDepth addr

end ZString

namespace Memory

open PackedAddress Header

variable {m : Memory} {version b : UInt8}

theorem collectWords_setFirst (start words : Nat) {addr : Nat} (h : addr ≠ 0) :
    ZString.collectWords (m.setByte 0 b) start words addr =
      ZString.collectWords m start words addr := by
  induction words generalizing addr with
  | zero => rfl
  | succ words ih =>
      unfold ZString.collectWords
      rw [readWord_setFirst h, ih (by omega)]

/-- A string that the first byte is no part of has the same text whatever stands there. -/
theorem decodeAt_setFirst {table depth addr : Nat} (h : ZString.ApartAt version m table depth addr) :
    ZString.decodeAt (m.setByte 0 b) version table depth addr =
      ZString.decodeAt m version table depth addr := by
  induction depth generalizing addr with
  | zero => rfl
  | succ depth ih =>
      obtain ⟨h₀, h⟩ := h
      unfold ZString.decodeAt
      have hc : ZString.collect (m.setByte 0 b) addr = ZString.collect m addr :=
        collectWords_setFirst addr ZString.maxWords h₀
      rw [hc]
      refine except_bind_congr fun (zchars, length) hz => ?_
      refine congrArg (· >>= fun text => pure (text, length))
        (ZString.scan_congr (fun _ => rfl) Iff.rfl (fun _ _ => rfl) (fun n hn => ?_) .small .small)
      obtain ⟨ht, hd⟩ := h zchars length hz n hn
      dsimp only
      rw [readWord_setFirst ht]
      exact except_bind_congr fun target htarget => by rw [ih (hd target htarget)]

theorem decodeFor_setFirst {addr : Nat} (h : ZString.Apart version m addr) :
    ZString.decodeFor version (m.setByte 0 b) addr = ZString.decodeFor version m addr := by
  unfold ZString.decodeFor Header.abbreviations
  rw [readWord_setFirst (by decide)]
  exact except_bind_congr fun table ht => by rw [decodeAt_setFirst (h table ht)]

/-- What a version asks for is the same in two memories. A text is if the first byte is no part of
it. -/
structure SameFor (version : UInt8) (m m' : Memory) : Prop where
  start : ∀ packed, packed ≠ 0 →
    Machine.startFor version m' packed = Machine.startFor version m packed
  textAddress : ∀ packed, addressFor version m' 0x2a packed = addressFor version m 0x2a packed
  text : ∀ packed,
    (∀ addr, addressFor version m 0x2a packed = .ok addr → ZString.Apart version m addr) →
    ZString.textFor version m' packed = ZString.textFor version m packed
  fileLength : fileLengthFor version m' = fileLengthFor version m
  checksum : checksumFor version m' = checksumFor version m

theorem sameFor_setFirst (version : UInt8) (m : Memory) (b : UInt8) :
    SameFor version m (m.setByte 0 b) where
  start packed h₀ := by
    unfold Machine.startFor
    rw [addressFor_setFirst (by decide)]
    exact except_bind_congr fun addr ha => routineStart_setFirst (addressFor_ne_zero ha h₀)
  textAddress := addressFor_setFirst (by decide)
  text packed hc := by
    unfold ZString.textFor
    rw [addressFor_setFirst (by decide)]
    exact except_bind_congr fun addr ha => by rw [decodeFor_setFirst (hc addr ha)]
  fileLength := by
    unfold fileLengthFor
    rw [readWord_setFirst (by decide)]
  checksum := by
    unfold checksumFor
    rw [readWord_setFirst (by decide)]

end Memory

end ZMachine
