import Mathlib.Data.List.Nodup
import ZMachine.Zscii

/-!
# Codes and characters

Which code stands for which character is said twice, once from each side. Both say the same, but for
the carriage return, which has a code and is not the character of one.

* `Zscii.Denotes`         : the code stands for the character.
* `Zscii.toChar?_eq_some`, `ofChar?_eq_some` : both directions say that.
* `Zscii.toChar?_iff_ofChar?`, `toChar?_byte` : they are inverse to each other, and by bytes as
  well.
* `Zscii.Denotes.range`, `Denotes.toUInt16_toUInt8` : the codes that there are, each of them a byte.
-/

namespace ZMachine.Zscii

/-! ## 1. The extra characters -/

-- The string stands for its list of characters; to compute that list from the bytes is slow.
section

set_option maxRecDepth 1024

theorem length_extras : extras.length = 69 :=
  (congrArg List.length String.toList_ofList).trans rfl

theorem nodup_extras : extras.Nodup := by
  have hlist : extras = _ := String.toList_ofList
  rw [hlist]
  decide +kernel

theorem all_extras : extras.all (fun c => 126 < c.toNat) = true := by
  have hlist : extras = _ := String.toList_ofList
  rw [hlist]
  decide +kernel

end

/-- Each of them stands at one place. -/
theorem idxOf?_extras {c : Char} {k : Nat} : extras.idxOf? c = some k ↔ extras[k]? = some c := by
  rw [List.idxOf?_eq_some_iff, List.getElem?_eq_some_iff]
  constructor
  · intro h
    obtain ⟨hk, hc, -⟩ := h
    exact ⟨hk, hc⟩
  · intro h
    obtain ⟨hk, hc⟩ := h
    refine ⟨hk, hc, fun j hj heq => ?_⟩
    have hjk : j = k := nodup_extras.getElem_inj_iff.mp (heq.trans hc.symm)
    omega

/-! ## 2. Codes of characters -/

theorem toNat_le_iff {c d : Char} : c ≤ d ↔ c.toNat ≤ d.toNat :=
  Char.le_def.trans UInt32.le_iff_toNat_le

theorem toNat_ofNat_basic : ∀ n < 127, (Char.ofNat n).toNat = n := by
  decide

/-- The code stands for the character: the end of a line, a character of the basic set, which is its
own code, or the extra character at its place. -/
inductive Denotes (code : Word) (c : Char) : Prop where
  | lineEnd (hcode : code = newline) (hc : c = '\n')
  | basic (hge : 32 ≤ code.toNat) (hle : code.toNat ≤ 126) (hc : c.toNat = code.toNat)
  | extra (k : Nat) (hcode : code.toNat = firstExtra + k) (hc : extras[k]? = some c)

variable {code : Word} {c : Char}

theorem toNat_newline : newline.toNat = 13 :=
  rfl

theorem firstExtra_eq : firstExtra = 155 :=
  rfl

/-- There is no code but these. -/
theorem Denotes.range (h : Denotes code c) :
    code = newline ∨ 32 ≤ code.toNat ∧ code.toNat ≤ 223 := by
  cases h with
  | lineEnd hcode hc => exact .inl hcode
  | basic hge hle hc => exact .inr ⟨hge, by omega⟩
  | extra k hcode hc =>
      obtain ⟨hlt, -⟩ := List.getElem?_eq_some_iff.mp hc
      rw [length_extras] at hlt
      rw [firstExtra_eq] at hcode
      exact .inr ⟨by omega, by omega⟩

/-- Every code fits in a byte. -/
theorem Denotes.toUInt16_toUInt8 (h : Denotes code c) : code.toUInt8.toUInt16 = code := by
  have hlt : code.toNat < 256 := by
    rcases h.range with hcode | hrange
    · rw [hcode]
      decide
    · omega
  apply UInt16.toNat_inj.mp
  rw [UInt8.toNat_toUInt16, UInt16.toNat_toUInt8, Nat.mod_eq_of_lt hlt]

/-- An extra character lies behind the basic set. -/
theorem lt_toNat_of_extra {k : Nat} (h : extras[k]? = some c) : 126 < c.toNat :=
  of_decide_eq_true (List.all_eq_true.mp all_extras c (List.mem_of_getElem? h))

theorem Denotes.ne_return (h : Denotes code c) : c ≠ '\r' := by
  rintro rfl
  cases h with
  | lineEnd hcode hc => cases hc
  | basic hge hle hc =>
      rw [← hc] at hge
      exact absurd hge (by decide)
  | extra k hcode hc => exact absurd (lt_toNat_of_extra hc) (by decide)

/-- **The character of a code.** -/
theorem toChar?_eq_some : toChar? code = some c ↔ Denotes code c := by
  have hrange : (32 ≤ code ∧ code ≤ 126) ↔ (32 ≤ code.toNat ∧ code.toNat ≤ 126) :=
    and_congr UInt16.le_iff_toNat_le UInt16.le_iff_toNat_le
  have hne : 32 ≤ code.toNat → code ≠ newline := by
    rintro hge rfl
    rw [toNat_newline] at hge
    omega
  unfold toChar?
  constructor
  · intro h
    split at h
    · rename_i hcode
      cases h
      exact .lineEnd hcode rfl
    · split at h
      · rename_i hcode
        obtain ⟨hge, hle⟩ := hrange.mp hcode
        cases h
        exact .basic hge hle (toNat_ofNat_basic _ (by omega))
      · split at h
        · exact .extra (code.toNat - firstExtra) (by omega) h
        · cases h
  · intro h
    cases h with
    | lineEnd hcode hc => rw [if_pos hcode, hc]
    | basic hge hle hc => rw [if_neg (hne hge), if_pos (hrange.mpr ⟨hge, hle⟩), ← hc, Char.ofNat_toNat]
    | extra k hcode hc =>
        rw [firstExtra_eq] at hcode
        have hnot : ¬ (32 ≤ code ∧ code ≤ 126) := fun h => by
          have hle := (hrange.mp h).2
          omega
        rw [if_neg (hne (by omega)), if_neg hnot, firstExtra_eq, if_pos (by omega), hcode,
          Nat.add_sub_cancel_left, hc]

/-- **The code of a character**, which the carriage return has as well. -/
theorem ofChar?_eq_some :
    ofChar? c = some code ↔ Denotes code c ∨ c = '\r' ∧ code = newline := by
  have hrange : (' ' ≤ c ∧ c ≤ '~') ↔ (32 ≤ c.toNat ∧ c.toNat ≤ 126) :=
    and_congr toNat_le_iff toNat_le_iff
  have hne : 32 ≤ c.toNat → ¬ (c = '\n' ∨ c = '\r') := by
    rintro hge (rfl | rfl)
    · exact absurd hge (by decide)
    · exact absurd hge (by decide)
  have hcode : ∀ n < 65536, (UInt16.ofNat n).toNat = n := fun n hn => UInt16.toNat_ofNat_of_lt hn
  unfold ofChar?
  constructor
  · intro h
    split at h
    · rename_i hc
      cases h
      rcases hc with rfl | rfl
      · exact .inl (.lineEnd rfl rfl)
      · exact .inr ⟨rfl, rfl⟩
    · split at h
      · rename_i hc
        obtain ⟨hge, hle⟩ := hrange.mp hc
        cases h
        have hnat := hcode c.toNat (by omega)
        exact .inl (.basic (by omega) (by omega) hnat.symm)
      · obtain ⟨k, hk, rfl⟩ := Option.map_eq_some_iff.mp h
        have hc := idxOf?_extras.mp hk
        obtain ⟨hlt, -⟩ := List.getElem?_eq_some_iff.mp hc
        rw [length_extras] at hlt
        rw [firstExtra_eq]
        exact .inl (.extra k (hcode _ (by omega)) hc)
  · intro h
    rcases h with h | ⟨hc, hnewline⟩
    · cases h with
      | lineEnd hnewline hc => rw [if_pos (.inl hc), hnewline]
      | basic hge hle hc =>
          rw [← hc] at hge hle
          rw [if_neg (hne hge), if_pos (hrange.mpr ⟨hge, hle⟩), hc, UInt16.ofNat_toNat]
      | extra k hplace hc =>
          have hlt := lt_toNat_of_extra hc
          have hnot : ¬ (' ' ≤ c ∧ c ≤ '~') := fun h => by
            have hle := (hrange.mp h).2
            omega
          rw [if_neg (hne (by omega)), if_neg hnot, idxOf?_extras.mpr hc, Option.map_some, ← hplace,
            UInt16.ofNat_toNat]
    · rw [if_pos (.inr hc), hnewline]

/-- **Both directions are inverse to each other**, but for the carriage return. -/
theorem toChar?_iff_ofChar? : toChar? code = some c ↔ ofChar? c = some code ∧ c ≠ '\r' := by
  rw [toChar?_eq_some, ofChar?_eq_some]
  constructor
  · intro h
    exact ⟨.inl h, h.ne_return⟩
  · intro h
    obtain ⟨h | ⟨hc, -⟩, hne⟩ := h
    · exact h
    · exact absurd hc hne

/-- A character that a code stands for is found again by the byte of its code. -/
theorem toChar?_byte (h : toChar? code = some c) : toChar? (ofChar c).toUInt8.toUInt16 = some c := by
  have hcode : ofChar c = code := by
    unfold ofChar
    rw [(toChar?_iff_ofChar?.mp h).1]
    rfl
  rw [hcode, (toChar?_eq_some.mp h).toUInt16_toUInt8]
  exact h

end ZMachine.Zscii
