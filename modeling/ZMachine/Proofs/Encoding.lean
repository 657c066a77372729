import Mathlib.Data.List.Basic
import Mathlib.Data.Nat.Bitwise
import ZMachine.Proofs.Defects
import ZMachine.Proofs.Zscii

/-!
# Encoding of texts

The standard encoding of a text, from version 3 on: each character by its place in an alphabet or by
its code, abbreviations by their number, three z-characters to a word. What is so encoded is read
back.

* `ZString.expansions`         : the abbreviations that a row of z-characters takes in.
* `ZString.Item`               : a character or an abbreviation, with the text it stands for.
* `ZString.Item.zchars`, `padded`, `words` : its z-characters; those of a row of items, filled up;
  the words of these.
* `ZString.scan_items`         : the text of such a row.
* `ZString.collectWords_words` : the row that is found where the words stand.
* `ZString.decode_words`       : the text that is read there.
-/

namespace ZMachine

namespace ZString

open ZMachine.Action

/-! ## 1. What a row of z-characters takes in -/

/-- The numbers of the abbreviations that the text of a row of z-characters takes in, in their
order. The row is read as by `scan`: a spelled-out code holds no reference. -/
def expansions (version : UInt8) : Alphabet → Alphabet → List UInt8 → List Nat
  | _, _, [] => []
  | locked, current, z :: rest =>
      match abbreviationBank? version z with
      | some bank =>
          match rest with
          | [] => []
          | index :: rest => (bank * 32 + index.toNat) :: expansions version locked locked rest
      | none =>
          if z = 0 then
            expansions version locked locked rest
          else if z = 1 then
            expansions version locked locked rest
          else if z ≤ 5 ∧ version ≤ 2 then
            let shifted := if z % 2 = 0 then locked.next else locked.next.next
            expansions version (if 4 ≤ z then shifted else locked) shifted rest
          else if z = 4 then
            expansions version locked .capital rest
          else if z = 5 then
            expansions version locked .symbol rest
          else if z = 6 ∧ current = .symbol then
            match rest with
            | _ :: _ :: rest => expansions version locked locked rest
            | _ => []
          else
            expansions version locked locked rest

/-- **Only the abbreviations that a row takes in matter for its text.** -/
theorem scan_congr_expansions {version : UInt8} {f g : Nat → Except Fault (List Char)}
    {locked current : Alphabet} {zchars : List UInt8}
    (h : ∀ n ∈ expansions version locked current zchars, f n = g n) :
    scan version f locked current zchars = scan version g locked current zchars := by
  fun_induction expansions version locked current zchars with
  | case1 => rfl
  | case2 locked current z bank hz =>
      rw [scan.eq_def version f, scan.eq_def version g]
      simp only [hz]
  | case3 locked current z bank hz index rest ih =>
      have hf : f (bank * 32 + index.toNat) = g (bank * 32 + index.toNat) := h _ List.mem_cons_self
      have hrest := ih fun n hn => h n (List.mem_cons_of_mem _ hn)
      rw [scan.eq_def version f, scan.eq_def version g]
      simp only [hz, hf, hrest]
  | case4 locked current rest hz ih =>
      rw [scan.eq_def version f, scan.eq_def version g]
      simp only [hz, ih h, ↓reduceIte]
  | case5 locked current rest hz h₀ ih =>
      rw [scan.eq_def version f, scan.eq_def version g]
      simp only [hz, h₀, ih h, ↓reduceIte]
  | case6 locked current z rest hz h₀ h₁ h₂ shifted ih =>
      rw [scan.eq_def version f, scan.eq_def version g]
      simp only [hz, h₀, h₁, if_pos h₂, ↓reduceIte]
      exact ih h
  | case7 locked current rest hz h₀ h₁ h₂ ih =>
      rw [scan.eq_def version f, scan.eq_def version g]
      simp only [hz, h₀, h₁, h₂, ih h, ↓reduceIte]
  | case8 locked current rest hz h₀ h₁ h₂ h₄ ih =>
      rw [scan.eq_def version f, scan.eq_def version g]
      simp only [hz, h₀, h₁, h₂, h₄, ih h, ↓reduceIte]
  | case9 locked current z hz h₀ h₁ h₂ h₄ h₅ h₆ high low rest ih =>
      rw [scan.eq_def version f, scan.eq_def version g]
      simp only [hz, h₀, h₁, h₂, h₄, h₅, if_pos h₆, ih h, ↓reduceIte]
  | case10 locked current z rest hz h₀ h₁ h₂ h₄ h₅ h₆ hr =>
      rw [scan.eq_def version f, scan.eq_def version g]
      simp only [hz, h₀, h₁, h₂, h₄, h₅, if_pos h₆, ↓reduceIte]
  | case11 locked current z rest hz h₀ h₁ h₂ h₄ h₅ h₆ ih =>
      rw [scan.eq_def version f, scan.eq_def version g]
      simp only [hz, h₀, h₁, h₂, h₄, h₅, h₆, ih h, ↓reduceIte]

/-! ## 2. One z-character after the other, from version 3 on -/

section

variable {version : UInt8} (hv : 3 ≤ version ∧ version ≤ 8)
  (abbreviation : Nat → Except Fault (List Char)) (locked current : Alphabet) (rest : List UInt8)

include hv

theorem not_early : ¬ version ≤ 2 :=
  fun h => absurd (UInt8.le_trans hv.1 h) (by decide)

theorem bank_of_reference {z : UInt8} (h : 1 ≤ z ∧ z ≤ 3) :
    abbreviationBank? version z = some (z.toNat - 1) := by
  have h₂ : version ≠ 2 := fun h => not_early hv (h ▸ UInt8.le_refl _)
  unfold abbreviationBank?
  rw [if_neg h₂, if_pos ⟨hv.1, hv.2, h.1, h.2⟩]

theorem bank_of_letter {z : UInt8} (h : ¬ (1 ≤ z ∧ z ≤ 3)) : abbreviationBank? version z = none := by
  have h₂ : version ≠ 2 := fun h => not_early hv (h ▸ UInt8.le_refl _)
  unfold abbreviationBank?
  rw [if_neg h₂, if_neg fun hz => h hz.2.2]

theorem scan_space :
    scan version abbreviation locked current (0 :: rest) =
      (' ' :: ·) <$> scan version abbreviation locked locked rest := by
  rw [scan.eq_def]
  simp only [bank_of_letter hv (z := 0) (by decide), ↓reduceIte]
  rfl

theorem scan_capital :
    scan version abbreviation locked current (4 :: rest) =
      scan version abbreviation locked .capital rest := by
  rw [scan.eq_def]
  simp only [bank_of_letter hv (z := 4) (by decide), not_early hv, and_false, ↓reduceIte]
  rfl

theorem scan_symbol :
    scan version abbreviation locked current (5 :: rest) =
      scan version abbreviation locked .symbol rest := by
  rw [scan.eq_def]
  simp only [bank_of_letter hv (z := 5) (by decide), not_early hv, and_false, ↓reduceIte]
  rfl

theorem scan_letter {z : UInt8} {c : Char} (h₆ : 6 ≤ z) (hs : ¬ (z = 6 ∧ current = .symbol))
    (hc : current.char? version z = some c) :
    scan version abbreviation locked current (z :: rest) =
      (c :: ·) <$> scan version abbreviation locked locked rest := by
  have hne {y : UInt8} (hy : y < 6) : z ≠ y := by
    rintro rfl
    exact UInt8.not_le.mpr hy h₆
  have hz : ¬ (1 ≤ z ∧ z ≤ 3) := fun h => UInt8.not_le.mpr (by decide) (UInt8.le_trans h₆ h.2)
  rw [scan.eq_def]
  simp only [bank_of_letter hv hz, hne (y := 0) (by decide), hne (y := 1) (by decide),
    hne (y := 4) (by decide), hne (y := 5) (by decide), not_early hv, and_false, hs, hc, ↓reduceIte]
  rfl

theorem scan_code (high low : UInt8) :
    scan version abbreviation locked .symbol (6 :: high :: low :: rest) =
      ((Zscii.toChar? ((high.toUInt16 <<< 5) ||| low.toUInt16)).getD '?' :: ·) <$>
        scan version abbreviation locked locked rest := by
  rw [scan.eq_def]
  simp only [bank_of_letter hv (z := 6) (by decide), not_early hv, and_false, ↓reduceIte]
  rfl

theorem scan_reference {z index : UInt8} (h : 1 ≤ z ∧ z ≤ 3) {text : List Char}
    (ht : abbreviation ((z.toNat - 1) * 32 + index.toNat) = .ok text) :
    scan version abbreviation locked current (z :: index :: rest) =
      (text ++ ·) <$> scan version abbreviation locked locked rest := by
  rw [scan.eq_def]
  simp only [bank_of_reference hv h, ht]
  rfl

/-- Shifts that nothing follows stand for nothing. -/
theorem scan_padding (count : Nat) :
    scan version abbreviation locked current (List.replicate count 5) = .ok [] := by
  induction count generalizing current with
  | zero => rw [List.replicate_zero, scan]
  | succ count ih => rw [List.replicate_succ, scan_symbol hv, ih]

end

/-! ## 3. Characters and abbreviations -/

/-- A character with its code. -/
structure CodedChar where
  code : Word
  char : Char
  printed : Zscii.toChar? code = some char

/-- The place of a character in an alphabet, as a z-character. -/
def Alphabet.place? (version : UInt8) (alphabet : Alphabet) (c : Char) : Option UInt8 :=
  ((alphabet.chars version).idxOf? c).map fun i => UInt8.ofNat (6 + i)

/-- The z-characters of a character: its place in an alphabet, or else its code in two halves. -/
def CodedChar.zchars (version : UInt8) (c : CodedChar) : List UInt8 :=
  if c.char = ' ' then [0]
  else match Alphabet.small.place? version c.char with
    | some z => [z]
    | none =>
        match Alphabet.capital.place? version c.char with
        | some z => [4, z]
        | none =>
            match Alphabet.symbol.place? version c.char with
            | some z => [5, z]
            | none => [5, 6, (c.code >>> 5).toUInt8, (c.code &&& 31).toUInt8]

theorem CodedChar.code_le (c : CodedChar) : c.code.toNat ≤ 223 := by
  have h := c.printed
  unfold Zscii.toChar? at h
  split at h
  · rename_i hn
    rw [hn]
    decide
  · split at h
    · rename_i hn
      have := UInt16.le_iff_toNat_le.mp hn.2
      exact Nat.le_trans this (by decide)
    · split at h
      · obtain ⟨hlt, -⟩ := List.getElem?_eq_some_iff.mp h
        rw [Zscii.length_extras] at hlt
        have hf : Zscii.firstExtra = 155 := rfl
        omega
      · cases h

/-- A code is what its halves make up. -/
theorem code_of_halves (code : Word) (h : code.toNat ≤ 223) :
    ((code >>> 5).toUInt8.toUInt16 <<< 5) ||| (code &&& 31).toUInt8.toUInt16 = code := by
  have hlow : (code.toNat &&& 31) % 256 = code.toNat % 32 := by
    rw [Nat.and_two_pow_sub_one_eq_mod _ 5]
    omega
  have hhigh : (code.toNat >>> 5 % 256) <<< 5 % 65536 = (code.toNat / 32) <<< 5 := by
    rw [Nat.shiftRight_eq_div_pow, Nat.shiftLeft_eq, Nat.shiftLeft_eq]
    omega
  apply UInt16.toNat_inj.mp
  simp only [UInt16.toNat_or, UInt16.toNat_shiftLeft, UInt16.toNat_shiftRight, UInt8.toNat_toUInt16,
    UInt16.toNat_toUInt8, UInt16.toNat_and, UInt16.reduceToNat, Nat.reduceMod, Nat.reducePow]
  rw [hhigh, hlow, ← Nat.shiftLeft_add_eq_or_of_lt (Nat.mod_lt _ (by decide)), Nat.shiftLeft_eq]
  omega

/-- A number below 32 fits in a z-character. -/
theorem toNat_zchar {n : Nat} (h : n < 32) : (UInt8.ofNat n).toNat = n :=
  UInt8.toNat_ofNat_of_lt (Nat.lt_trans h (by decide))

/-- An alphabet has a character at its place. -/
theorem Alphabet.char?_of_place {version z : UInt8} {alphabet : Alphabet} {c : Char}
    (h : alphabet.place? version c = some z) : alphabet.char? version z = some c := by
  obtain ⟨i, hi, rfl⟩ := Option.map_eq_some_iff.mp h
  obtain ⟨hlt, hc, -⟩ := List.findIdx?_eq_some_iff_getElem.mp hi
  have hle : i < 26 := length_chars version alphabet ▸ hlt
  have hz : (UInt8.ofNat (6 + i)).toNat = 6 + i := toNat_zchar (by omega)
  have hsix : ¬ UInt8.ofNat (6 + i) < 6 := by
    rw [UInt8.lt_iff_toNat_lt, hz]
    exact Nat.not_lt.mpr (Nat.le_add_right 6 i)
  unfold Alphabet.char?
  rw [if_neg hsix, hz, Nat.add_sub_cancel_left, List.getElem?_eq_getElem hlt, eq_of_beq hc]

theorem Alphabet.place_bounds {version z : UInt8} {alphabet : Alphabet} {c : Char}
    (h : alphabet.place? version c = some z) : 6 ≤ z ∧ z < 32 :=
  isSome_char?.mp (Option.isSome_of_eq_some (char?_of_place h))

/-- The first symbol is the space. -/
theorem Alphabet.symbol_first (version : UInt8) : symbol.char? version 6 = some ' ' := by
  by_cases h : version = 1
  · rw [h]
    rfl
  · unfold char? chars
    rw [if_neg h]
    rfl

/-- A part of a text: a character, or an abbreviation with the text it stands for. -/
inductive Item where
  | char (c : CodedChar)
  | abbreviation (bank : Fin 3) (index : Fin 32) (text : List Char)

namespace Item

/-- The text of a part. -/
def text : Item → List Char
  | .char c => [c.char]
  | .abbreviation _ _ text => text

/-- The z-characters of a part. -/
def zchars (version : UInt8) : Item → List UInt8
  | .char c => c.zchars version
  | .abbreviation bank index _ => [UInt8.ofNat (bank + 1), UInt8.ofNat index]

variable {version : UInt8} {abbreviation : Nat → Except Fault (List Char)}

/-- The abbreviation of a part has the text that the part says. -/
def FoundBy (abbreviation : Nat → Except Fault (List Char)) : Item → Prop
  | .char _ => True
  | .abbreviation bank index text => abbreviation (bank * 32 + index) = .ok text

end Item

section

variable {version : UInt8} {abbreviation : Nat → Except Fault (List Char)}

/-- **The text of a character's z-characters is the character.** -/
theorem scan_char (hv : 3 ≤ version ∧ version ≤ 8) (c : CodedChar) (rest : List UInt8) :
    scan version abbreviation .small .small (c.zchars version ++ rest) =
      (c.char :: ·) <$> scan version abbreviation .small .small rest := by
  have hplace {alphabet : Alphabet} {z : UInt8} (hz : alphabet.place? version c.char = some z)
      (hs : ¬ (z = 6 ∧ alphabet = .symbol)) :
      scan version abbreviation .small alphabet (z :: rest) =
        (c.char :: ·) <$> scan version abbreviation .small .small rest :=
    scan_letter hv _ _ _ _ (Alphabet.place_bounds hz).1 hs (Alphabet.char?_of_place hz)
  unfold CodedChar.zchars
  by_cases hspace : c.char = ' '
  · rw [if_pos hspace, hspace]
    exact scan_space hv _ _ _ _
  · rw [if_neg hspace]
    cases h₀ : Alphabet.small.place? version c.char with
    | some z => exact hplace h₀ nofun
    | none =>
        cases h₁ : Alphabet.capital.place? version c.char with
        | some z => exact (scan_capital hv _ _ _ _).trans (hplace h₁ nofun)
        | none =>
            cases h₂ : Alphabet.symbol.place? version c.char with
            | some z =>
                -- A 6 behind the shift would announce a code, but it is the place of the space.
                refine (scan_symbol hv _ _ _ _).trans (hplace h₂ ?_)
                rintro ⟨rfl, -⟩
                have hc := (Alphabet.symbol_first version).symm.trans (Alphabet.char?_of_place h₂)
                exact hspace (Option.some.inj hc).symm
            | none =>
                refine (scan_symbol hv _ _ _ _).trans ((scan_code hv _ _ _ _ _).trans ?_)
                rw [code_of_halves _ c.code_le, c.printed]
                rfl

/-- The text of a part's z-characters is that of the part. -/
theorem scan_item (hv : 3 ≤ version ∧ version ≤ 8) {item : Item} (h : item.FoundBy abbreviation)
    (rest : List UInt8) :
    scan version abbreviation .small .small (item.zchars version ++ rest) =
      (item.text ++ ·) <$> scan version abbreviation .small .small rest := by
  cases item with
  | char c => exact scan_char hv c rest
  | abbreviation bank index text =>
      have hbank : (UInt8.ofNat (bank + 1)).toNat = bank + 1 := toNat_zchar (by omega)
      have hindex : (UInt8.ofNat index).toNat = index := toNat_zchar index.isLt
      refine scan_reference hv _ _ _ _ ?_ ?_
      · rw [UInt8.le_iff_toNat_le, UInt8.le_iff_toNat_le, hbank]
        exact ⟨Nat.le_add_left 1 bank, bank.isLt⟩
      · rw [hbank, hindex, Nat.add_sub_cancel]
        exact h

/-- **The text of a row of parts**, with shifts behind it that fill it up. -/
theorem scan_items (hv : 3 ≤ version ∧ version ≤ 8) {items : List Item}
    (h : ∀ item ∈ items, item.FoundBy abbreviation) (count : Nat) :
    scan version abbreviation .small .small
        (items.flatMap (Item.zchars version) ++ List.replicate count 5) =
      .ok (items.flatMap Item.text) := by
  induction items with
  | nil => exact scan_padding hv _ _ _ count
  | cons item items ih =>
      rw [List.flatMap_cons, List.append_assoc, scan_item hv (h item List.mem_cons_self),
        ih fun item' h' => h item' (List.mem_cons_of_mem _ h')]
      rfl

end

/-! ## 4. Words -/

/-- The word of three z-characters; the last of a string is marked. -/
def wordOf (last : Bool) (a b c : UInt8) : Word :=
  UInt16.ofNat ((if last then 0x8000 else 0) + a.toNat * 1024 + b.toNat * 32 + c.toNat)

/-- The words of a row of z-characters, three to a word. -/
def words : List UInt8 → List Word
  | [a, b, c] => [wordOf true a b c]
  | a :: b :: c :: rest => wordOf false a b c :: words rest
  | _ => []

/-- How many shifts fill up a row of so many z-characters to whole words, at least one. -/
def fillers (count : Nat) : Nat :=
  if count = 0 then 3 else (3 - count % 3) % 3

/-- The z-characters of a row of parts, filled up to whole words. -/
def padded (version : UInt8) (items : List Item) : List UInt8 :=
  let zchars := items.flatMap (Item.zchars version)
  zchars ++ List.replicate (fillers zchars.length) 5

theorem toNat_zcharsOf (w : Word) :
    (zcharsOf w).map UInt8.toNat = [w.toNat / 1024 % 32, w.toNat / 32 % 32, w.toNat % 32] := by
  have hmask (v : Word) : (v &&& 0x1f).toUInt8.toNat = v.toNat % 32 := by
    rw [UInt16.toNat_toUInt8, UInt16.toNat_and]
    have h : v.toNat &&& 31 = v.toNat % 32 := Nat.and_two_pow_sub_one_eq_mod _ 5
    show (v.toNat &&& 31) % 256 = _
    omega
  show [_, _, _] = _
  rw [hmask, hmask, hmask, UInt16.toNat_shiftRight, UInt16.toNat_shiftRight,
    Nat.shiftRight_eq_div_pow, Nat.shiftRight_eq_div_pow]
  rfl

theorem isLast_eq (w : Word) : isLast w = decide (0x8000 ≤ w.toNat) := by
  have hlt : w.toNat < 65536 := w.toNat_lt
  have hbit : w.toNat &&& 0x8000 = (w.toNat.testBit 15).toNat * 0x8000 := Nat.and_two_pow w.toNat 15
  have htest : w.toNat.testBit 15 = decide (0x8000 ≤ w.toNat) := by
    rw [Nat.testBit_eq_decide_div_mod_eq]
    exact decide_eq_decide.mpr (by omega)
  unfold isLast
  refine decide_eq_decide.mpr ?_
  rw [ne_eq, ← UInt16.toNat_inj, UInt16.toNat_and]
  show ¬ w.toNat &&& 0x8000 = 0 ↔ _
  rw [hbit, htest]
  by_cases h : 0x8000 ≤ w.toNat <;> simp [h]

section

variable {a b c : UInt8} (ha : a < 32) (hb : b < 32) (hc : c < 32) (last : Bool)

include ha hb hc

theorem toNat_wordOf : (wordOf last a b c).toNat =
    (if last then 0x8000 else 0) + a.toNat * 1024 + b.toNat * 32 + c.toNat := by
  have ha : a.toNat < 32 := UInt8.lt_iff_toNat_lt.mp ha
  have hb : b.toNat < 32 := UInt8.lt_iff_toNat_lt.mp hb
  have hc : c.toNat < 32 := UInt8.lt_iff_toNat_lt.mp hc
  unfold wordOf
  rw [UInt16.toNat_ofNat']
  refine Nat.mod_eq_of_lt ?_
  split <;> omega

theorem zcharsOf_wordOf : zcharsOf (wordOf last a b c) = [a, b, c] := by
  refine List.map_injective_iff.mpr (fun _ _ h => UInt8.toNat_inj.mp h) ?_
  rw [toNat_zcharsOf, toNat_wordOf ha hb hc]
  have ha : a.toNat < 32 := UInt8.lt_iff_toNat_lt.mp ha
  have hb : b.toNat < 32 := UInt8.lt_iff_toNat_lt.mp hb
  have hc : c.toNat < 32 := UInt8.lt_iff_toNat_lt.mp hc
  show _ = [a.toNat, b.toNat, c.toNat]
  congr 1
  · split <;> omega
  · congr 1
    · split <;> omega
    · congr 1
      split <;> omega

theorem isLast_wordOf : isLast (wordOf last a b c) = last := by
  rw [isLast_eq, toNat_wordOf ha hb hc]
  have ha : a.toNat < 32 := UInt8.lt_iff_toNat_lt.mp ha
  have hb : b.toNat < 32 := UInt8.lt_iff_toNat_lt.mp hb
  have hc : c.toNat < 32 := UInt8.lt_iff_toNat_lt.mp hc
  cases last with
  | false =>
      rw [if_neg Bool.false_ne_true]
      exact decide_eq_false (by omega)
  | true =>
      rw [if_pos rfl]
      exact decide_eq_true (by omega)

end

/-- The words stand in memory one after the other, from an address on. -/
def StandAt (m : Memory) : Nat → List Word → Prop
  | _, [] => True
  | addr, w :: rest => m.readWord addr = .ok w ∧ StandAt m (addr + 2) rest

/-- Where the words of a row stand, the row is found. -/
theorem collectWords_words {m : Memory} (start : Nat) {zchars : List UInt8} {limit addr : Nat}
    (hm : StandAt m addr (words zchars)) (hne : zchars ≠ []) (hthree : zchars.length % 3 = 0)
    (hz : ∀ z ∈ zchars, z < 32) (hlimit : zchars.length ≤ 3 * limit) :
    collectWords m start limit addr = .ok (zchars, 2 * (words zchars).length) := by
  have hword (last : Bool) {a b c : UInt8} {rest : List UInt8}
      (h : ∀ z ∈ a :: b :: c :: rest, z < 32) :
      zcharsOf (wordOf last a b c) = [a, b, c] ∧ isLast (wordOf last a b c) = last := by
    have ha : a < 32 := h a (by simp)
    have hb : b < 32 := h b (by simp)
    have hc : c < 32 := h c (by simp)
    exact ⟨zcharsOf_wordOf ha hb hc last, isLast_wordOf ha hb hc last⟩
  fun_induction words zchars generalizing limit addr with
  | case1 a b c =>
      obtain ⟨hzchars, hlast⟩ := hword true hz
      cases limit with
      | zero => cases hlimit
      | succ limit =>
          unfold collectWords
          rw [hm.1, ← hzchars]
          exact if_pos hlast
  | case2 a b c rest hrest ih =>
      obtain ⟨hzchars, hlast⟩ := hword false hz
      simp only [List.length_cons] at hthree hlimit
      cases limit with
      | zero => omega
      | succ limit =>
          have hr : collectWords m start limit (addr + 2) = .ok (rest, 2 * (words rest).length) :=
            ih hm.2 (fun h => hrest h) (by omega) (fun z h => hz z (by simp [h])) (by omega)
          unfold collectWords
          rw [hm.1]
          refine (if_neg (by rw [hlast]; decide)).trans ?_
          rw [hr, hzchars]
          rfl
  | case3 zchars h₁ h₂ =>
      -- The lengths that are left are not those of a row.
      rcases zchars with _ | ⟨a, _ | ⟨b, _ | ⟨c, rest⟩⟩⟩
      · exact absurd rfl hne
      · cases hthree
      · cases hthree
      · cases rest with
        | nil => exact (h₁ a b c rfl).elim
        | cons d rest => exact (h₂ a b c _ rfl).elim

theorem length_padded (version : UInt8) (items : List Item) :
    (padded version items).length % 3 = 0 := by
  unfold padded fillers
  rw [List.length_append, List.length_replicate]
  split <;> omega

theorem padded_ne_nil (version : UInt8) (items : List Item) : padded version items ≠ [] := by
  unfold padded fillers
  rw [← List.length_pos_iff, List.length_append, List.length_replicate]
  split <;> omega

theorem CodedChar.lt_of_mem_zchars {version z : UInt8} {c : CodedChar} (h : z ∈ c.zchars version) :
    z < 32 := by
  have hplace {alphabet : Alphabet} {y : UInt8} (hy : alphabet.place? version c.char = some y) :
      y < 32 := (Alphabet.place_bounds hy).2
  have hhigh : (c.code >>> 5).toUInt8 < 32 := by
    have hcode : c.code.toNat ≤ 223 := c.code_le
    rw [UInt8.lt_iff_toNat_lt, UInt16.toNat_toUInt8, UInt16.toNat_shiftRight,
      Nat.shiftRight_eq_div_pow]
    show c.code.toNat / 32 % 256 < 32
    omega
  have hlow : (c.code &&& 31).toUInt8 < 32 :=
    lt_of_mem_zcharsOf (w := c.code) (.tail _ (.tail _ (.head _)))
  suffices hall : ∀ z ∈ c.zchars version, z < 32 from hall z h
  unfold zchars
  split_ifs
  · simp
  · cases h₀ : Alphabet.small.place? version c.char with
    | some y => simp [hplace h₀]
    | none =>
        cases h₁ : Alphabet.capital.place? version c.char with
        | some y => simp [hplace h₁]
        | none =>
            cases h₂ : Alphabet.symbol.place? version c.char with
            | some y => simp [hplace h₂]
            | none => simp [-UInt16.toUInt8_and, hhigh, hlow]

theorem Item.lt_of_mem_zchars {version z : UInt8} {item : Item} (h : z ∈ item.zchars version) :
    z < 32 := by
  cases item with
  | char c => exact c.lt_of_mem_zchars h
  | abbreviation bank index text =>
      rw [UInt8.lt_iff_toNat_lt]
      rcases List.mem_pair.mp h with rfl | rfl
      · rw [toNat_zchar (by omega)]
        show bank.val + 1 < 32
        omega
      · rw [toNat_zchar index.isLt]
        exact index.isLt

theorem lt_of_mem_padded {version z : UInt8} {items : List Item} (h : z ∈ padded version items) :
    z < 32 := by
  rcases List.mem_append.mp h with h | h
  · obtain ⟨item, -, h⟩ := List.mem_flatMap.mp h
    exact item.lt_of_mem_zchars h
  · rw [List.eq_of_mem_replicate h]
    decide

/-! ## 5. Texts in memory -/

/-- The abbreviation of a part is found in memory: its entry in the table leads to a string that
takes in no abbreviation itself and has the text that the part says. -/
def Item.FoundIn (m : Memory) : Item → Prop
  | .char _ => True
  | .abbreviation bank index text => ∃ version table target zchars length,
      Header.version m = .ok version ∧ Header.abbreviations m = .ok table ∧
      m.readWord (table.toNat + (bank * 32 + index) * 2) = .ok target ∧
      collect m (target.toNat * 2) = .ok (zchars, length) ∧
      expansions version .small .small zchars = [] ∧
      decode m (target.toNat * 2) = .ok (String.ofList text, length)

/-- The texts of the abbreviations, in a string that stands at a depth. -/
def abbreviationAt (m : Memory) (version : UInt8) (table depth number : Nat) :
    Except Fault (List Char) := do
  let target ← m.readWord (table + number * 2)
  let (text, _) ← decodeAt m version table depth (target.toNat * 2)
  return text

section

variable {m : Memory} {version : UInt8} {table : Word} {addr length : Nat} {zchars : List UInt8}
  {text : List Char}

theorem decodeAt_of_collect (table depth : Nat) (hc : collect m addr = .ok (zchars, length)) :
    decodeAt m version table (depth + 1) addr =
      (·, length) <$> scan version (abbreviationAt m version table depth) .small .small zchars := by
  unfold decodeAt
  rw [hc]
  rfl

theorem decode_eq_ok (hv : Header.version m = .ok version) (ht : Header.abbreviations m = .ok table) :
    decode m addr = .ok (String.ofList text, length) ↔
      decodeAt m version table.toNat maxDepth addr = .ok (text, length) := by
  have hd : decode m addr =
      (fun p => (String.ofList p.1, p.2)) <$> decodeAt m version table.toNat maxDepth addr := by
    unfold decode
    rw [hv, ht]
    rfl
  rw [hd]
  cases decodeAt m version table.toNat maxDepth addr with
  | error e => exact ⟨nofun, nofun⟩
  | ok p => simp [Functor.map, Except.map, Prod.ext_iff, String.ofList_inj]

/-- A string that takes in no abbreviation has its text at whatever depth it stands. -/
theorem decodeAt_of_plain {table depth depth' : Nat} (hc : collect m addr = .ok (zchars, length))
    (hp : expansions version .small .small zchars = []) :
    decodeAt m version table (depth + 1) addr = decodeAt m version table (depth' + 1) addr := by
  rw [decodeAt_of_collect table depth hc, decodeAt_of_collect table depth' hc]
  refine congrArg _ (scan_congr_expansions fun n hn => ?_)
  rw [hp] at hn
  cases hn

theorem Item.FoundIn.foundBy {item : Item} (hv : Header.version m = .ok version)
    (ht : Header.abbreviations m = .ok table) (h : item.FoundIn m) (depth : Nat) :
    item.FoundBy (abbreviationAt m version table.toNat (depth + 1)) := by
  cases item with
  | char c => exact trivial
  | abbreviation bank index text =>
      obtain ⟨version', table', target, zchars, length, hv', ht', htarget, hc, hp, hd⟩ := h
      cases hv.symm.trans hv'
      cases ht.symm.trans ht'
      have hd' : decodeAt m version table.toNat (depth + 1) (target.toNat * 2) = .ok (text, length) :=
        (decodeAt_of_plain hc hp).trans ((decode_eq_ok hv ht).mp hd)
      exact except_bind_eq_ok.mpr ⟨target, htarget, except_bind_eq_ok.mpr ⟨(text, length), hd', rfl⟩⟩

/-- **What is encoded is read back**, in a story of any version from 3 on: where the words of a row
of characters and abbreviations stand, their text is read, and the words are all that is taken
up. -/
theorem decode_words {items : List Item} (hm : Header.size ≤ m.size)
    (hversion : Header.version m = .ok version) (hv : 3 ≤ version ∧ version ≤ 8)
    (hitems : ∀ item ∈ items, item.FoundIn m) (hlength : (padded version items).length ≤ 3000)
    (hwords : StandAt m addr (words (padded version items))) :
    decode m addr = .ok (String.ofList (items.flatMap Item.text),
      2 * (words (padded version items)).length) := by
  obtain ⟨table, ht⟩ : ∃ table, Header.abbreviations m = .ok table :=
    Memory.readWord_of_lt (Nat.lt_of_lt_of_le (by decide) hm)
  have hc : collect m addr = .ok (padded version items, 2 * (words (padded version items)).length) :=
    collectWords_words addr hwords (padded_ne_nil version items) (length_padded version items)
      (fun z h => lt_of_mem_padded h) hlength
  have hscan : scan version (abbreviationAt m version table.toNat 3) .small .small
      (padded version items) = .ok (items.flatMap Item.text) :=
    scan_items hv (fun item h => (hitems item h).foundBy hversion ht 2) _
  refine (decode_eq_ok hversion ht).mpr ((decodeAt_of_collect table.toNat 3 hc).trans ?_)
  rw [hscan]
  rfl

end

/-- A memory of version 5 with the sign "<" as its second abbreviation, and a greeting at 0x48. -/
def greetingMemory : Memory :=
  ⟨#[5, 0, 0, 0, 0, 0, 0, 0, 0, 0, 0, 0, 0, 0, 0, 0,
    0, 0, 0, 0, 0, 0, 0, 0, 0, 0x40, 0, 0, 0, 0, 0, 0,
    0, 0, 0, 0, 0, 0, 0, 0, 0, 0, 0, 0, 0, 0, 0, 0,
    0, 0, 0, 0, 0, 0, 0, 0, 0, 0, 0, 0, 0, 0, 0, 0,
    0, 0, 0, 0x22, 0x14, 0xc1, 0xf0, 0xa5, 0x11, 0xae, 0, 0x21, 0x14, 0xe5, 0x18, 0x9b,
    0x96, 0x45]⟩

set_option maxRecDepth 1024 in
/-- A greeting with letters of all three alphabets, an abbreviation and a character spelled out. -/
def greeting : List Item :=
  [.char ⟨72, 'H', by decide⟩, .char ⟨105, 'i', by decide⟩, .char ⟨32, ' ', by decide⟩,
    .abbreviation 0 1 ['<'], .char ⟨13, '\n', by decide⟩,
    .char ⟨155, 'ä', (congrArg (·[0]?) String.toList_ofList).trans rfl⟩, .char ⟨46, '.', by decide⟩]

theorem greeting_words :
    Header.size ≤ greetingMemory.size ∧ Header.version greetingMemory = .ok 5 ∧
      (3 ≤ (5 : UInt8) ∧ (5 : UInt8) ≤ 8) ∧ (∀ item ∈ greeting, item.FoundIn greetingMemory) ∧
      (padded 5 greeting).length ≤ 3000 ∧ StandAt greetingMemory 0x48 (words (padded 5 greeting)) ∧
      decode greetingMemory 0x48 = .ok ("Hi <\nä.", 10) := by
  have hversion : Header.version greetingMemory = .ok 5 := rfl
  have hitems : ∀ item ∈ greeting, item.FoundIn greetingMemory := by
    have hsign : (Item.abbreviation 0 1 ['<']).FoundIn greetingMemory :=
      ⟨5, 0x40, 0x22, [5, 6, 1, 28, 5, 5], 4, rfl, rfl, eq_ok_of_toOption (by decide +kernel),
        eq_ok_of_toOption (by decide +kernel), by decide +kernel, eq_ok_of_toOption (by decide +kernel)⟩
    intro item h
    cases item with
    | char c => exact trivial
    | abbreviation bank index text =>
        simp only [greeting, List.mem_cons, List.not_mem_nil, or_false, reduceCtorEq, false_or,
          Item.abbreviation.injEq] at h
        obtain ⟨rfl, rfl, rfl⟩ := h
        exact hsign
  have hwords : StandAt greetingMemory 0x48 (words (padded 5 greeting)) := by
    have h : words (padded 5 greeting) = [0x11ae, 0x21, 0x14e5, 0x189b, 0x9645] := by decide +kernel
    rw [h]
    exact ⟨rfl, rfl, rfl, rfl, rfl, trivial⟩
  exact ⟨by decide, hversion, by decide, hitems, by decide +kernel, hwords,
    decode_words (by decide) hversion (by decide) hitems (by decide +kernel) hwords⟩

end ZString

end ZMachine
