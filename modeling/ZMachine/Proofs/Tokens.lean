import ZMachine.Proofs.Compression

/-!
# What counts as a stored form

A stored form is a row of tokens: a byte other than 0 stands for one changed byte, and 0 with the
byte behind it for a run of unchanged ones. A story takes a stored form exactly if the tokens cover
no more bytes than it has.

* `Token`, `coverage`, `Covers` : the tokens, how many bytes they cover, and which token covers a
  byte.
* `decompress_token`            : one token is read as the bytes it covers, each changed by its
  difference.
* `decompress_flatMap`          : a row of tokens, by induction on it.
* `tokens_of_decompress`        : nothing but rows of tokens is accepted.
* `accepts_tokens`              : both directions, with the memory that comes of it.
-/

namespace ZMachine.Compression

open ZMachine.Action

/-! ## 1. Tokens -/

/-- A part of a stored form. -/
inductive Token where
  /-- One changed byte, by its difference. -/
  | literal (difference : UInt8) (changed : difference ≠ 0)
  /-- A run of unchanged bytes, of one more than the count. -/
  | run (count : UInt8)
  deriving DecidableEq, Repr

namespace Token

/-- How a token is stored. -/
def bytes : Token → List UInt8
  | literal difference _ => [difference]
  | run count => [0, count]

/-- How many bytes of memory a token covers. -/
def width : Token → Nat
  | literal _ _ => 1
  | run count => count.toNat + 1

/-- By what the bytes a token covers differ from the story. -/
def difference : Token → UInt8
  | literal difference _ => difference
  | run _ => 0

end Token

/-- How many bytes of memory a row of tokens covers. -/
def coverage : List Token → Nat
  | [] => 0
  | token :: rest => token.width + coverage rest

/-- The byte at `place` is covered by the token: it lies behind what the tokens before it cover. -/
def Covers (tokens : List Token) (place : Nat) (token : Token) : Prop :=
  ∃ before after, tokens = before ++ token :: after ∧ coverage before ≤ place ∧
    place < coverage before + token.width

@[simp] theorem coverage_nil : coverage [] = 0 := rfl

@[simp] theorem coverage_cons (token : Token) (tokens : List Token) :
    coverage (token :: tokens) = token.width + coverage tokens := rfl

/-- The first token covers the first bytes, and what it leaves over is covered by the others. -/
theorem covers_cons {token u : Token} {tokens : List Token} {place : Nat} :
    Covers (token :: tokens) place u ↔
      (place < token.width ∧ u = token) ∨ ∃ k, place = token.width + k ∧ Covers tokens k u := by
  constructor
  · intro h
    obtain ⟨before, after, h, hle, hlt⟩ := h
    cases before with
    | nil =>
        cases h
        rw [coverage_nil, Nat.zero_add] at hlt
        exact .inl ⟨hlt, rfl⟩
    | cons first before =>
        cases h
        rw [coverage_cons] at hle hlt
        exact .inr ⟨place - token.width, by omega, before, after, rfl, by omega, by omega⟩
  · intro h
    rcases h with ⟨hlt, rfl⟩ | ⟨k, rfl, before, after, rfl, hle, hlt⟩
    · exact ⟨[], tokens, rfl, Nat.zero_le _, by rwa [coverage_nil, Nat.zero_add]⟩
    · refine ⟨token :: before, after, rfl, ?_, ?_⟩
      · rw [coverage_cons]
        omega
      · rw [coverage_cons]
        omega

/-- Every byte within the coverage is covered by some token. -/
theorem exists_covers {tokens : List Token} {place : Nat} (h : place < coverage tokens) :
    ∃ token, Covers tokens place token := by
  induction tokens generalizing place with
  | nil => exact absurd h (Nat.not_lt_zero place)
  | cons token tokens ih =>
      rw [coverage_cons] at h
      by_cases hlt : place < token.width
      · exact ⟨token, covers_cons.mpr (.inl ⟨hlt, rfl⟩)⟩
      · have hrest : place - token.width < coverage tokens := by omega
        obtain ⟨u, hu⟩ := ih hrest
        exact ⟨u, covers_cons.mpr (.inr ⟨place - token.width, by omega, hu⟩)⟩

/-! ## 2. Rows of tokens are accepted -/

/-- **A token is read as the bytes it covers**, each changed by its difference. -/
theorem decompress_token (token : Token) (stored : List UInt8) {story : List UInt8}
    (h : token.width ≤ story.length) :
    decompress (token.bytes ++ stored) story = do
      return (story.take token.width).map (· ^^^ token.difference) ++
        (← decompress stored (story.drop token.width)) := by
  cases token with
  | literal d hd =>
      cases story with
      | nil => exact absurd h (Nat.not_succ_le_zero 0)
      | cons b story => exact decompress_literal hd
  | run count =>
      have hsame : (story.take (count.toNat + 1)).map (· ^^^ 0) = story.take (count.toNat + 1) := by
        simp
      show decompress (0 :: count :: stored) story = _
      rw [decompress.eq_def]
      simp only [Token.width] at h
      simp only [if_true, if_pos h, Token.width, Token.difference, hsame]

/-- What a row of tokens makes of a story: a memory of its size, in which each covered byte differs
from the story's by what its token says, and the others do not differ. -/
structure Patched (tokens : List Token) (story current : List UInt8) : Prop where
  length : current.length = story.length
  covered : ∀ {place token}, Covers tokens place token →
    current[place]? = story[place]?.map (· ^^^ token.difference)
  rest : ∀ {place}, coverage tokens ≤ place → current[place]? = story[place]?

theorem patched_nil (story : List UInt8) : Patched [] story story where
  length := rfl
  covered h := by
    obtain ⟨before, after, h, -⟩ := h
    cases before <;> cases h
  rest _ := rfl

/-- The bytes of the first token stand before what the others make of the rest. -/
theorem Patched.cons {token : Token} {tokens : List Token} {story current : List UInt8}
    (hle : token.width ≤ story.length) (h : Patched tokens (story.drop token.width) current) :
    Patched (token :: tokens) story
      ((story.take token.width).map (· ^^^ token.difference) ++ current) := by
  have hwidth : ((story.take token.width).map (· ^^^ token.difference)).length = token.width := by
    rw [List.length_map, List.length_take]
    omega
  refine ⟨?_, fun {place u} hc => ?_, fun {place} hp => ?_⟩
  · rw [List.length_append, hwidth, h.length, List.length_drop]
    omega
  · rcases covers_cons.mp hc with ⟨hlt, rfl⟩ | ⟨k, rfl, hk⟩
    · rw [List.getElem?_append_left (by omega), List.getElem?_map, List.getElem?_take_of_lt hlt]
    · rw [List.getElem?_append_right (by omega), hwidth, Nat.add_sub_cancel_left, h.covered hk,
        List.getElem?_drop]
  · rw [coverage_cons] at hp
    rw [List.getElem?_append_right (by omega), hwidth, h.rest (by omega), List.getElem?_drop,
      Nat.add_sub_cancel' (by omega)]

/-- **A row of tokens that covers no more than the story is accepted.** -/
theorem decompress_flatMap {tokens : List Token} {story : List UInt8}
    (h : coverage tokens ≤ story.length) :
    ∃ current, decompress (tokens.flatMap Token.bytes) story = .ok current ∧
      Patched tokens story current := by
  induction tokens generalizing story with
  | nil => exact ⟨story, by rw [List.flatMap_nil, decompress], patched_nil story⟩
  | cons token tokens ih =>
      rw [coverage_cons] at h
      have hle : token.width ≤ story.length := by omega
      have hrest : coverage tokens ≤ (story.drop token.width).length := by
        rw [List.length_drop]
        omega
      obtain ⟨current, hd, hp⟩ := ih hrest
      refine ⟨_, ?_, hp.cons hle⟩
      rw [List.flatMap_cons, decompress_token token _ hle, hd]
      rfl

/-! ## 3. Nothing else is -/

/-- **What is accepted is a row of tokens** that covers no more than the story. -/
theorem tokens_of_decompress {stored story current : List UInt8}
    (h : decompress stored story = .ok current) :
    ∃ tokens : List Token, stored = tokens.flatMap Token.bytes ∧
      coverage tokens ≤ story.length := by
  fun_induction decompress stored story generalizing current with
  | case1 story => exact ⟨[], rfl, Nat.zero_le _⟩
  | case2 story => cases h
  | case3 story count stored length hle =>
      rename_i ih
      obtain ⟨rest, hr, -⟩ := except_bind_eq_ok.mp h
      obtain ⟨tokens, rfl, hc⟩ := ih hr
      refine ⟨.run count :: tokens, rfl, ?_⟩
      rw [List.length_drop] at hc
      rw [coverage_cons, show (Token.run count).width = length from rfl]
      omega
  | case4 story count stored hle => cases h
  | case5 d stored hd => cases h
  | case6 d stored hd b story ih =>
      obtain ⟨rest, hr, -⟩ := except_bind_eq_ok.mp h
      obtain ⟨tokens, rfl, hc⟩ := ih hr
      refine ⟨.literal d hd :: tokens, rfl, ?_⟩
      rw [coverage_cons, Token.width, List.length_cons]
      omega

/-- What is not accepted is refused, and fails in no other way. -/
theorem refused_of_decompress {stored story : List UInt8} {e : Fault}
    (h : decompress stored story = .error e) : ∃ refusal, e = .refused refusal := by
  fun_induction decompress stored story with
  | case1 story => cases h
  | case2 story => cases h; exact ⟨_, rfl⟩
  | case3 story count stored length hle =>
      rename_i ih
      rcases except_bind_eq_error.mp h with hr | ⟨rest, -, h⟩
      · exact ih hr
      · cases h
  | case4 story count stored hle => cases h; exact ⟨_, rfl⟩
  | case5 d stored hd => cases h; exact ⟨_, rfl⟩
  | case6 d stored hd b story ih =>
      rcases except_bind_eq_error.mp h with hr | ⟨rest, -, h⟩
      · exact ih hr
      · cases h

/-! ## 4. Exactly the rows of tokens -/

/-- **Exactly the rows of tokens that cover no more than the story are accepted.** The memory that
comes of one has the story's size; a byte covered by a literal is the story's with that difference,
and every other is the story's. All else is refused. -/
theorem accepts_tokens (stored story : List UInt8) :
    ((∃ current, decompress stored story = .ok current) ↔
      ∃ tokens : List Token, stored = tokens.flatMap Token.bytes ∧
        coverage tokens ≤ story.length) ∧
    (∀ tokens : List Token, stored = tokens.flatMap Token.bytes → coverage tokens ≤ story.length →
      ∃ current, decompress stored story = .ok current ∧ current.length = story.length ∧
        (∀ place d hd, Covers tokens place (.literal d hd) →
          current[place]? = story[place]?.map (· ^^^ d)) ∧
        ∀ place, (∀ d hd, ¬ Covers tokens place (.literal d hd)) →
          current[place]? = story[place]?) ∧
    ((¬ ∃ tokens : List Token, stored = tokens.flatMap Token.bytes ∧
        coverage tokens ≤ story.length) →
      ∃ refusal, decompress stored story = .error (.refused refusal)) := by
  refine ⟨⟨?_, ?_⟩, ?_, ?_⟩
  · intro h
    obtain ⟨current, h⟩ := h
    exact tokens_of_decompress h
  · intro h
    obtain ⟨tokens, rfl, hle⟩ := h
    obtain ⟨current, hd, -⟩ := decompress_flatMap hle
    exact ⟨current, hd⟩
  · rintro tokens rfl hle
    obtain ⟨current, hd, hp⟩ := decompress_flatMap hle
    refine ⟨current, hd, hp.length, fun place d hd hc => hp.covered hc, fun place hn => ?_⟩
    -- A byte that no literal covers lies behind the coverage, or a run covers it.
    by_cases hlt : place < coverage tokens
    · obtain ⟨token, hc⟩ := exists_covers hlt
      cases token with
      | literal d hd => exact absurd hc (hn d hd)
      | run count => rw [hp.covered hc, Token.difference]; simp
    · exact hp.rest (Nat.le_of_not_lt hlt)
  · intro hn
    cases h : decompress stored story with
    | ok current => exact absurd (tokens_of_decompress h) hn
    | error e =>
        obtain ⟨refusal, rfl⟩ := refused_of_decompress h
        exact ⟨refusal, rfl⟩

/-- Two runs in a row, a changed byte, and the rest left out; a run without its length; and a run
beyond the end of the story. -/
theorem twoRuns_accepted :
    (∃ current, decompress [0, 1, 0, 0, 9] [1, 2, 3, 4, 5] = .ok current ∧ current.length = 5 ∧
      current[3]? = some (4 ^^^ 9)) ∧
    (∃ refusal, decompress [7, 0] [1, 2, 3] = .error (.refused refusal)) ∧
    ∃ refusal, decompress [7, 0, 2] [1, 2, 3] = .error (.refused refusal) := by
  have hn {stored story : List UInt8} (h : (decompress stored story).toOption = none) :
      ¬ ∃ tokens : List Token, stored = tokens.flatMap Token.bytes ∧
        coverage tokens ≤ story.length := by
    intro ht
    obtain ⟨current, hc⟩ := (accepts_tokens stored story).1.mpr ht
    rw [hc] at h
    cases h
  refine ⟨?_, (accepts_tokens _ _).2.2 (hn rfl), (accepts_tokens _ _).2.2 (hn rfl)⟩
  obtain ⟨current, hd, hl, hliteral, -⟩ := (accepts_tokens [0, 1, 0, 0, 9] [1, 2, 3, 4, 5]).2.1
    [.run 1, .run 0, .literal 9 (by decide)] rfl (by decide)
  exact ⟨current, hd, hl, hliteral 3 9 _ ⟨[.run 1, .run 0], [], rfl, by decide, by decide⟩⟩

end ZMachine.Compression
