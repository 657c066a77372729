import ZMachine.Proofs.Abbreviations

/-!
# The length of an encoded string

A string is measured in one way and read in another: the first looks for its last word only, the
second collects the z-characters on the way and gives up after so many words. Both find the same
words, and so the same length, wherever a string is read.

* `ZString.Closed`                 : the words of one whole string.
* `ZString.stringEnd_eq_ok_iff`, `encodedLength_eq_ok_iff` : the words that are measured.
* `ZString.collectWords_eq_ok_iff` : the words that are read.
* `ZString.exists_collect_iff`     : which strings are short enough to be read.
* `ZString.spans_of_decode`        : the words of a string that has a text.
-/

namespace ZMachine.ZString

open ZMachine.Action

/-! ## 1. The words of a string -/

/-- The words make up one string: the first that is marked as a last one is the last of them. -/
def Closed : List Word → Prop
  | [] => False
  | w :: rest => if isLast w then rest = [] else Closed rest

/-- The words are those of the string at an address. -/
def Spans (m : Memory) (addr : Nat) (ws : List Word) : Prop :=
  Closed ws ∧ StandAt m addr ws

section Spans

variable {m : Memory} {addr stop length : Nat} {w : Word} {ws : List Word}

theorem spans_cons :
    Spans m addr (w :: ws) ↔ m.readWord addr = .ok w ∧
      if isLast w then ws = [] else Spans m (addr + 2) ws := by
  have hs : Spans m addr (w :: ws) ↔
      (if isLast w then ws = [] else Closed ws) ∧ m.readWord addr = .ok w ∧
        StandAt m (addr + 2) ws := Iff.rfl
  rw [hs]
  by_cases hlast : isLast w = true
  · rw [if_pos hlast, if_pos hlast]
    constructor
    · rintro ⟨rfl, hw, -⟩
      exact ⟨hw, rfl⟩
    · rintro ⟨hw, rfl⟩
      exact ⟨rfl, hw, trivial⟩
  · rw [if_neg hlast, if_neg hlast]
    exact and_left_comm

/-- **A string is measured up to the end of its words.** -/
theorem stringEnd_eq_ok_iff :
    stringEnd m addr = .ok stop ↔ ∃ ws, Spans m addr ws ∧ stop = addr + 2 * ws.length := by
  constructor
  · intro h
    fun_induction stringEnd m addr with
    | case1 addr e he => cases h
    | case2 addr w hw hlast =>
        cases h
        exact ⟨[w], spans_cons.mpr ⟨hw, by rw [if_pos hlast]⟩, rfl⟩
    | case3 addr w hw hlast ih =>
        obtain ⟨ws, hs, rfl⟩ := ih h
        refine ⟨w :: ws, spans_cons.mpr ⟨hw, by rwa [if_neg hlast]⟩, ?_⟩
        rw [List.length_cons]
        omega
  · rintro ⟨ws, hs, rfl⟩
    induction ws generalizing addr with
    | nil => exact hs.1.elim
    | cons w ws ih =>
        obtain ⟨hw, hs⟩ := spans_cons.mp hs
        rw [stringEnd_of_readWord hw]
        by_cases hlast : isLast w = true
        · rw [if_pos hlast] at hs ⊢
          rw [hs]
          rfl
        · rw [if_neg hlast] at hs ⊢
          rw [ih hs, List.length_cons]
          congr 1
          omega

theorem encodedLength_eq_ok_iff :
    encodedLength m addr = .ok length ↔ ∃ ws, Spans m addr ws ∧ length = 2 * ws.length := by
  rw [encodedLength_eq_ok, stringEnd_eq_ok_iff]
  simp only [Nat.add_left_cancel_iff]

/-- **A string is read as the z-characters of its words**, provided there are not too many. -/
theorem collectWords_eq_ok_iff (start : Nat) {limit : Nat} {zchars : List UInt8} :
    collectWords m start limit addr = .ok (zchars, length) ↔
      ∃ ws, Spans m addr ws ∧ ws.length ≤ limit ∧ zchars = ws.flatMap zcharsOf ∧
        length = 2 * ws.length := by
  induction limit generalizing addr zchars length with
  | zero =>
      constructor
      · intro h
        cases h
      · rintro ⟨ws, hs, hle, -⟩
        rw [List.length_eq_zero_iff.mp (Nat.le_zero.mp hle)] at hs
        exact hs.1.elim
  | succ limit ih =>
      unfold collectWords
      constructor
      · intro h
        obtain ⟨w, hw, h⟩ := except_bind_eq_ok.mp h
        by_cases hlast : isLast w = true
        · rw [if_pos hlast] at h
          cases h
          refine ⟨[w], spans_cons.mpr ⟨hw, by rw [if_pos hlast]⟩, ?_, ?_, rfl⟩
          · exact Nat.succ_le_succ (Nat.zero_le limit)
          · exact (List.append_nil _).symm
        · rw [if_neg hlast] at h
          obtain ⟨⟨rest, n⟩, hr, h⟩ := except_bind_eq_ok.mp h
          cases h
          obtain ⟨ws, hs, hle, rfl, rfl⟩ := ih.mp hr
          refine ⟨w :: ws, spans_cons.mpr ⟨hw, by rwa [if_neg hlast]⟩, ?_, ?_, ?_⟩
          · exact Nat.succ_le_succ hle
          · rw [List.flatMap_cons]
          · rw [List.length_cons]
            omega
      · rintro ⟨ws, hs, hle, rfl, rfl⟩
        cases ws with
        | nil => exact hs.1.elim
        | cons w ws =>
            obtain ⟨hw, hs⟩ := spans_cons.mp hs
            refine except_bind_eq_ok.mpr ⟨w, hw, ?_⟩
            by_cases hlast : isLast w = true
            · rw [if_pos hlast] at hs ⊢
              rw [hs, List.flatMap_cons, List.flatMap_nil, List.append_nil]
              rfl
            · rw [if_neg hlast] at hs ⊢
              have hr := ih.mpr ⟨ws, hs, Nat.le_of_succ_le_succ hle, rfl, rfl⟩
              exact except_bind_eq_ok.mpr ⟨_, hr, rfl⟩

/-! ## 2. Measured and read -/

theorem length_flatMap_zcharsOf (ws : List Word) :
    (ws.flatMap zcharsOf).length = 3 * ws.length := by
  induction ws with
  | nil => rfl
  | cons w ws ih =>
      have hthree : (zcharsOf w).length = 3 := rfl
      rw [List.flatMap_cons, List.length_append, ih, hthree, List.length_cons]
      omega

theorem length_of_collect {zchars : List UInt8} (h : collect m addr = .ok (zchars, length)) :
    zchars.length = 3 * length / 2 := by
  obtain ⟨ws, -, -, rfl, rfl⟩ := (collectWords_eq_ok_iff addr).mp h
  rw [length_flatMap_zcharsOf]
  omega

/-- **The strings that are read are those that measure at most 2000 bytes.** -/
theorem exists_collect_iff :
    (∃ zchars, collect m addr = .ok (zchars, length)) ↔
      encodedLength m addr = .ok length ∧ length ≤ 2000 := by
  have hlimit : maxWords = 1000 := rfl
  rw [encodedLength_eq_ok_iff]
  constructor
  · rintro ⟨zchars, h⟩
    obtain ⟨ws, hs, hle, -, rfl⟩ := (collectWords_eq_ok_iff addr).mp h
    exact ⟨⟨ws, hs, rfl⟩, by omega⟩
  · rintro ⟨⟨ws, hs, rfl⟩, hle⟩
    exact ⟨_, (collectWords_eq_ok_iff addr).mpr ⟨ws, hs, by omega, rfl, rfl⟩⟩

theorem exists_collect_of_decode {text : String} (h : decode m addr = .ok (text, length)) :
    ∃ zchars, collect m addr = .ok (zchars, length) := by
  obtain ⟨version, table, -, -, hd⟩ := exists_decodeAt_of_decode h
  obtain ⟨zchars, hc, -⟩ := decodeAt_eq_ok.mp hd
  exact ⟨zchars, hc⟩

/-- The length that comes with a text is that of the words the text was read from. -/
theorem spans_of_decode {text : String} (h : decode m addr = .ok (text, length)) :
    ∃ ws, Spans m addr ws ∧ length = 2 * ws.length := by
  obtain ⟨zchars, hc⟩ := exists_collect_of_decode h
  obtain ⟨ws, hs, -, -, hlength⟩ := (collectWords_eq_ok_iff addr).mp hc
  exact ⟨ws, hs, hlength⟩

end Spans

end ZMachine.ZString
