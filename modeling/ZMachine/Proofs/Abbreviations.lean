import Mathlib.Logic.Relation
import ZMachine.Proofs.Encoding

/-!
# Abbreviations inside abbreviations

An abbreviation is a string of its own and may take in others. How deeply they stand inside each
other is limited, so that a string which is read at all has only short chains of references below
it, and one that leads into a cycle is never read.

* `ZString.Refers`              : one string takes in another.
* `ZString.exists_text_of_scan` : a row that has a text has taken in every abbreviation it names.
* `ZString.decodeAt_succ`       : a text found within some levels is found within one more.
* `ZString.decodeAt_of_refers`, `decodeAt_of_isChain` : one reference costs a level, a chain as many
  as it is long.
* `ZString.references_bounded`  : chains and cycles below a string that is read.
-/

namespace ZMachine.ZString

open ZMachine.Action

/-! ## 1. What a string takes in -/

/-- The string at `addr` takes in the one at `target`: among its z-characters is a reference to an
abbreviation whose entry in the table leads there. -/
def Refers (m : Memory) (addr target : Nat) : Prop :=
  ∃ version table zchars length number word,
    Header.version m = .ok version ∧ Header.abbreviations m = .ok table ∧
    collect m addr = .ok (zchars, length) ∧ number ∈ expansions version .small .small zchars ∧
    m.readWord (table.toNat + number * 2) = .ok word ∧ target = word.toNat * 2

/-- **A row of z-characters that has a text has taken in every abbreviation it names.** -/
theorem exists_text_of_scan {version : UInt8} {f : Nat → Except Fault (List Char)}
    {locked current : Alphabet} {zchars : List UInt8} {text : List Char}
    (hs : scan version f locked current zchars = .ok text) :
    ∀ n ∈ expansions version locked current zchars, ∃ part, f n = .ok part := by
  fun_induction expansions version locked current zchars generalizing text with
  | case1 => exact fun n hn => absurd hn List.not_mem_nil
  | case2 locked current z bank hz => exact fun n hn => absurd hn List.not_mem_nil
  | case3 locked current z bank hz index rest ih =>
      rw [scan.eq_def] at hs
      simp only [hz] at hs
      obtain ⟨part, hpart, hs⟩ := except_bind_eq_ok.mp hs
      obtain ⟨text', hrest, -⟩ := except_bind_eq_ok.mp hs
      intro n hn
      rcases List.mem_cons.mp hn with rfl | hn
      · exact ⟨part, hpart⟩
      · exact ih hrest n hn
  | case4 locked current rest hz ih =>
      rw [scan.eq_def] at hs
      simp only [hz, ↓reduceIte] at hs
      obtain ⟨text', hrest, -⟩ := except_bind_eq_ok.mp hs
      exact ih hrest
  | case5 locked current rest hz h₀ ih =>
      rw [scan.eq_def] at hs
      simp only [hz, h₀, ↓reduceIte] at hs
      obtain ⟨text', hrest, -⟩ := except_bind_eq_ok.mp hs
      exact ih hrest
  | case6 locked current z rest hz h₀ h₁ h₂ shifted =>
      rename_i ih
      rw [scan.eq_def] at hs
      simp only [hz, h₀, h₁, if_pos h₂, ↓reduceIte] at hs
      exact ih hs
  | case7 locked current rest hz h₀ h₁ h₂ ih =>
      rw [scan.eq_def] at hs
      simp only [hz, h₀, h₁, h₂, ↓reduceIte] at hs
      exact ih hs
  | case8 locked current rest hz h₀ h₁ h₂ h₄ ih =>
      rw [scan.eq_def] at hs
      simp only [hz, h₀, h₁, h₂, h₄, ↓reduceIte] at hs
      exact ih hs
  | case9 locked current z hz h₀ h₁ h₂ h₄ h₅ h₆ high low rest ih =>
      rw [scan.eq_def] at hs
      simp only [hz, h₀, h₁, h₂, h₄, h₅, if_pos h₆, ↓reduceIte] at hs
      obtain ⟨text', hrest, -⟩ := except_bind_eq_ok.mp hs
      exact ih hrest
  | case10 locked current z rest hz h₀ h₁ h₂ h₄ h₅ h₆ hr =>
      exact fun n hn => absurd hn List.not_mem_nil
  | case11 locked current z rest hz h₀ h₁ h₂ h₄ h₅ h₆ ih =>
      rw [scan.eq_def] at hs
      simp only [hz, h₀, h₁, h₂, h₄, h₅, h₆, ↓reduceIte] at hs
      cases hc : current.char? version z with
      | none => rw [hc] at hs; cases hs
      | some c =>
          rw [hc] at hs
          obtain ⟨text', hrest, -⟩ := except_bind_eq_ok.mp hs
          exact ih hrest

section Levels

variable {m : Memory} {version : UInt8} {table : Word} {depth addr target length : Nat}
  {text : List Char}

theorem decodeAt_eq_ok {table : Nat} :
    decodeAt m version table (depth + 1) addr = .ok (text, length) ↔
      ∃ zchars, collect m addr = .ok (zchars, length) ∧
        scan version (abbreviationAt m version table depth) .small .small zchars = .ok text := by
  constructor
  · intro h
    obtain ⟨⟨zchars, length'⟩, hc, h⟩ := except_bind_eq_ok.mp h
    obtain ⟨text', hs, h⟩ := except_bind_eq_ok.mp h
    cases h
    exact ⟨zchars, hc, hs⟩
  · intro h
    obtain ⟨zchars, hc, hs⟩ := h
    rw [decodeAt_of_collect table depth hc, hs]
    rfl

/-- A text that is found within some levels is found within one more. -/
theorem decodeAt_succ {table : Nat} (h : decodeAt m version table depth addr = .ok (text, length)) :
    decodeAt m version table (depth + 1) addr = .ok (text, length) := by
  induction depth generalizing addr text length with
  | zero => cases h
  | succ depth ih =>
      obtain ⟨zchars, hc, hs⟩ := decodeAt_eq_ok.mp h
      refine decodeAt_eq_ok.mpr ⟨zchars, hc, ?_⟩
      rw [← hs]
      refine scan_congr_expansions fun n hn => ?_
      -- What the row takes in had a text with fewer levels, and has the same with one more.
      obtain ⟨part, hpart⟩ := exists_text_of_scan hs n hn
      rw [hpart]
      obtain ⟨word, hword, hp⟩ := except_bind_eq_ok.mp hpart
      obtain ⟨⟨part', length'⟩, hd, hp⟩ := except_bind_eq_ok.mp hp
      cases hp
      exact except_bind_eq_ok.mpr ⟨word, hword, except_bind_eq_ok.mpr ⟨_, ih hd, rfl⟩⟩

/-- **A string that is taken in is read with one level less.** -/
theorem decodeAt_of_refers (hv : Header.version m = .ok version)
    (ht : Header.abbreviations m = .ok table) (hr : Refers m addr target)
    (h : decodeAt m version table.toNat (depth + 1) addr = .ok (text, length)) :
    ∃ text' length', decodeAt m version table.toNat depth target = .ok (text', length') := by
  obtain ⟨version', table', zchars, length', number, word, hv', ht', hc, hn, hw, rfl⟩ := hr
  cases hv.symm.trans hv'
  cases ht.symm.trans ht'
  obtain ⟨zchars', hc', hs⟩ := decodeAt_eq_ok.mp h
  cases hc.symm.trans hc'
  obtain ⟨part, hpart⟩ := exists_text_of_scan hs number hn
  obtain ⟨word', hw', hp⟩ := except_bind_eq_ok.mp hpart
  cases hw.symm.trans hw'
  obtain ⟨⟨part', length''⟩, hd, -⟩ := except_bind_eq_ok.mp hp
  exact ⟨part', length'', hd⟩

/-- **A chain of references is shorter than the levels that its first string is read with**, and all
strings on it are read with that many as well. -/
theorem decodeAt_of_isChain (hv : Header.version m = .ok version)
    (ht : Header.abbreviations m = .ok table) {rest : List Nat}
    (hr : List.IsChain (Refers m) (addr :: rest))
    (h : decodeAt m version table.toNat depth addr = .ok (text, length)) :
    rest.length < depth ∧ ∀ a ∈ addr :: rest,
      ∃ text' length', decodeAt m version table.toNat depth a = .ok (text', length') := by
  induction rest generalizing addr depth text length with
  | nil =>
      cases depth with
      | zero => cases h
      | succ depth =>
          refine ⟨Nat.succ_pos depth, fun a ha => ?_⟩
          rw [List.mem_singleton.mp ha]
          exact ⟨text, length, h⟩
  | cons b rest ih =>
      obtain ⟨hab, hr⟩ := List.isChain_cons_cons.mp hr
      cases depth with
      | zero => cases h
      | succ depth =>
          obtain ⟨text', length', hb⟩ := decodeAt_of_refers hv ht hab h
          obtain ⟨hlt, hall⟩ := ih hr hb
          refine ⟨Nat.succ_lt_succ hlt, fun a ha => ?_⟩
          rcases List.mem_cons.mp ha with rfl | ha
          · exact ⟨text, length, h⟩
          · obtain ⟨text'', length'', hd⟩ := hall a ha
            exact ⟨text'', length'', decodeAt_succ hd⟩

end Levels

/-! ## 2. Chains and cycles -/

section Chains

variable {m : Memory} {addr target : Nat}

/-- A string is read by the version and the abbreviations that the header names. -/
theorem exists_decodeAt_of_decode {text : String} {length : Nat}
    (h : decode m addr = .ok (text, length)) :
    ∃ version table, Header.version m = .ok version ∧ Header.abbreviations m = .ok table ∧
      decodeAt m version table.toNat maxDepth addr = .ok (text.toList, length) := by
  obtain ⟨version, hv, h'⟩ := except_bind_eq_ok.mp h
  obtain ⟨table, ht, -⟩ := except_bind_eq_ok.mp h'
  rw [← String.ofList_toList (s := text), decode_eq_ok hv ht] at h
  exact ⟨version, table, hv, ht, h⟩

/-- From a string that leads into a cycle there is a reference to another such string. -/
theorem exists_refers_of_cycle (hr : Relation.ReflTransGen (Refers m) addr target)
    (hc : Relation.TransGen (Refers m) target target) :
    ∃ b, Refers m addr b ∧ Relation.ReflTransGen (Refers m) b target := by
  rcases Relation.ReflTransGen.cases_head hr with rfl | hb
  · exact Relation.TransGen.head'_iff.mp hc
  · exact hb

/-- From a string that leads into a cycle there are chains of any length. -/
theorem exists_isChain_of_cycle (hc : Relation.TransGen (Refers m) target target) (count : Nat)
    (hr : Relation.ReflTransGen (Refers m) addr target) :
    ∃ rest : List Nat, rest.length = count ∧ List.IsChain (Refers m) (addr :: rest) := by
  induction count generalizing addr with
  | zero => exact ⟨[], rfl, .singleton addr⟩
  | succ count ih =>
      obtain ⟨b, hab, hb⟩ := exists_refers_of_cycle hr hc
      obtain ⟨rest, hlength, hchain⟩ := ih hb
      exact ⟨b :: rest, by rw [List.length_cons, hlength], List.isChain_cons_cons.mpr ⟨hab, hchain⟩⟩

theorem bounded_of_decode {text : String} {length : Nat} (h : decode m addr = .ok (text, length))
    {rest : List Nat} (hr : List.IsChain (Refers m) (addr :: rest)) :
    rest.length ≤ 3 ∧ ∀ a ∈ addr :: rest, ∃ text length, decode m a = .ok (text, length) := by
  obtain ⟨version, table, hv, ht, hd⟩ := exists_decodeAt_of_decode h
  obtain ⟨hlt, hall⟩ := decodeAt_of_isChain hv ht hr hd
  refine ⟨Nat.le_of_lt_succ hlt, fun a ha => ?_⟩
  obtain ⟨text', length', hd'⟩ := hall a ha
  exact ⟨String.ofList text', length', (decode_eq_ok hv ht).mpr hd'⟩

/-- **Below a string that is read, references nest at most three deep.** Every chain of references
that starts at it has at most three of them, and leads only to strings that are read themselves. A
string from which a cycle of references can be reached is never read. -/
theorem references_bounded (m : Memory) (addr : Nat) :
    (∀ text length, decode m addr = .ok (text, length) →
      ∀ rest, List.IsChain (Refers m) (addr :: rest) →
        rest.length ≤ 3 ∧ ∀ a ∈ addr :: rest, ∃ text length, decode m a = .ok (text, length)) ∧
    ∀ target, Relation.ReflTransGen (Refers m) addr target →
      Relation.TransGen (Refers m) target target → ∃ e, decode m addr = .error e := by
  refine ⟨fun text length h rest hr => bounded_of_decode h hr, fun target hr hc => ?_⟩
  cases h : decode m addr with
  | error e => exact ⟨e, rfl⟩
  | ok p =>
      -- A chain of four goes around the cycle, which is one too many.
      obtain ⟨rest, hlength, hchain⟩ := exists_isChain_of_cycle hc 4 hr
      have hle := (bounded_of_decode h hchain).1
      omega

/-- A memory of version 3 with a string at 0x22 that takes in abbreviations three deep, and one at
0x2a that takes in an abbreviation which takes in itself. -/
def nestedTexts : Memory :=
  ⟨#[3, 0, 0, 0, 0, 0, 0, 0, 0, 0, 0, 0, 0, 0, 0, 0,
    0, 0, 0, 0, 0, 0, 0, 0, 0, 0x1a, 0, 0x12, 0, 0x13, 0, 0x14,
    0, 0x16, 0x84, 0x05, 0x84, 0x25, 0x84, 0x45, 0x98, 0xe8, 0x98, 0x23, 0x84, 0x65]⟩

theorem nestedTexts_bounded :
    decode nestedTexts 0x22 = .ok ("abc", 2) ∧
      List.IsChain (Refers nestedTexts) [0x22, 0x24, 0x26, 0x28] ∧
      (∀ a ∈ [0x22, 0x24, 0x26, 0x28], ∃ text length, decode nestedTexts a = .ok (text, length)) ∧
      Relation.ReflTransGen (Refers nestedTexts) 0x2a 0x2c ∧
      Relation.TransGen (Refers nestedTexts) 0x2c 0x2c ∧
      ∃ e, decode nestedTexts 0x2a = .error e := by
  have hd : decode nestedTexts 0x22 = .ok ("abc", 2) := eq_ok_of_toOption (by decide +kernel)
  have hr (addr number : Nat) (zchars : List UInt8) (word : Word)
      (hc : (collect nestedTexts addr).toOption = some (zchars, 2))
      (hn : number ∈ expansions 3 .small .small zchars)
      (hw : (nestedTexts.readWord (0x1a + number * 2)).toOption = some word) :
      Refers nestedTexts addr (word.toNat * 2) :=
    ⟨3, 0x1a, zchars, 2, number, word, rfl, rfl, eq_ok_of_toOption hc, hn, eq_ok_of_toOption hw,
      rfl⟩
  have h₁ : Refers nestedTexts 0x22 0x24 :=
    hr 0x22 0 [1, 0, 5] 0x12 (by decide +kernel) (by decide) (by decide)
  have h₂ : Refers nestedTexts 0x24 0x26 :=
    hr 0x24 1 [1, 1, 5] 0x13 (by decide +kernel) (by decide) (by decide)
  have h₃ : Refers nestedTexts 0x26 0x28 :=
    hr 0x26 2 [1, 2, 5] 0x14 (by decide +kernel) (by decide) (by decide)
  have h₄ : Refers nestedTexts 0x2a 0x2c :=
    hr 0x2a 3 [6, 1, 3] 0x16 (by decide +kernel) (by decide) (by decide)
  have h₅ : Refers nestedTexts 0x2c 0x2c :=
    hr 0x2c 3 [1, 3, 5] 0x16 (by decide +kernel) (by decide) (by decide)
  have hchain : List.IsChain (Refers nestedTexts) [0x22, 0x24, 0x26, 0x28] :=
    .cons_cons h₁ (.cons_cons h₂ (.cons_cons h₃ (.singleton _)))
  exact ⟨hd, hchain, ((references_bounded nestedTexts 0x22).1 _ _ hd _ hchain).2, .single h₄,
    .single h₅, (references_bounded nestedTexts 0x2a).2 0x2c (.single h₄) (.single h₅)⟩

end Chains

end ZMachine.ZString
