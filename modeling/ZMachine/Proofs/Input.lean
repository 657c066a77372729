import Mathlib.Data.List.DropRight
import ZMachine.Channel.Input
import ZMachine.Proofs.Action

/-!
# Input as one text

The source hands over one line at a time and what a character leaves of its line is held back. For
the story all this is one text, of which every request takes its share from the front.

* `Request`, `Request.share`, `Request.reply` : a line or a character; what it takes of the text
  ahead, and the reply made of it.
* `Request.shares`          : the shares of one request after the other, and what they leave.
* `Input.Ahead`             : the text ahead of an input, held back or still to come.
* `Input.ahead_ofBytes`     : at first that is the whole text.
* `Input.answer_of_ahead`   : a request gets the reply made of its share, and leaves the rest ahead.
-/

namespace ZMachine

open ZMachine.Action

/-! ## 1. Requests -/

/-- What may be asked of an input. -/
inductive Request where
  | line
  | char
  deriving DecidableEq, Repr

/-- What a request is answered; without a value once the text has come to its end. -/
inductive Reply where
  | line (line : Option (List Char))
  | char (c : Option Char)
  deriving DecidableEq, Repr

namespace Request

/-- What a request takes of the text ahead: one character, or all through the first newline. -/
def share : Request → List Char → List Char
  | .char, text => text.take 1
  | .line, text => text.takeWhile (· != '\n') ++ (text.dropWhile (· != '\n')).take 1

/-- The reply made of a share. A line is told without its newline and the carriage returns before
that. -/
def reply : Request → List Char → Reply
  | .char, share => .char share.head?
  | .line, share =>
      .line (if share = [] then none
        else some ((share.takeWhile (· != '\n')).rdropWhile (· == '\r')))

/-- What a request leaves of the text ahead. -/
def rest : Request → List Char → List Char
  | .char, text => text.drop 1
  | .line, text => (text.dropWhile (· != '\n')).drop 1

/-- The shares of one request after the other, and the text they leave. -/
def shares : List Request → List Char → List (List Char) × List Char
  | [], text => ([], text)
  | request :: requests, text =>
      let later := shares requests (request.rest text)
      (request.share text :: later.1, later.2)

theorem share_append_rest (request : Request) (text : List Char) :
    request.share text ++ request.rest text = text := by
  cases request with
  | char => exact List.take_append_drop 1 text
  | line =>
      show (_ ++ List.take 1 _) ++ List.drop 1 _ = text
      rw [List.append_assoc, List.take_append_drop, List.takeWhile_append_dropWhile]

/-- **The shares are the text**, in order, up to what is left. -/
theorem flatten_shares (requests : List Request) (text : List Char) :
    (shares requests text).1.flatten ++ (shares requests text).2 = text := by
  induction requests generalizing text with
  | nil => rfl
  | cons request requests ih =>
      rw [shares, List.flatten_cons, List.append_assoc, ih, share_append_rest]

end Request

namespace Input

/-! ## 2. The text ahead -/

/-- The lines still to come are the lines of a text: all but the last have their newline, and none
is empty. -/
inductive LinesOf : List (Option (List Char)) → List Char → Prop where
  | none : LinesOf [] []
  | last {line : List Char} (h : line ≠ []) : LinesOf [some line] line
  | more {line text : List Char} {lines : List (Option (List Char))} (h : '\n' ∈ line)
      (later : LinesOf lines text) : LinesOf (some line :: lines) (line ++ text)

/-- The text ahead of an input: what is held back of a line, and the lines still to come. -/
def Ahead (input : Input) (text : List Char) : Prop :=
  ∃ later, LinesOf input.lines later ∧ text = input.pending ++ later

theorem LinesOf.cons {line text : List Char} {lines : List (Option (List Char))}
    (h : LinesOf (some line :: lines) text) (c : Char) :
    LinesOf (some (c :: line) :: lines) (c :: text) := by
  cases h with
  | last h => exact .last nofun
  | more h later => exact .more (List.mem_cons_of_mem c h) later

/-- A text cut after its newlines is cut into its lines. -/
theorem linesOf_piecesAfter (text : List Char) :
    LinesOf ((piecesAfter (· == '\n') text).map some) text := by
  induction text with
  | nil => exact .none
  | cons c text ih =>
      unfold piecesAfter
      by_cases hc : (c == '\n') = true
      · rw [if_pos hc, eq_of_beq hc]
        have hline : '\n' ∈ ['\n'] := List.mem_singleton_self _
        exact .more hline ih
      · rw [if_neg hc]
        cases hp : piecesAfter (· == '\n') text with
        | nil =>
            rw [hp] at ih
            cases ih
            exact .last nofun
        | cons piece pieces =>
            rw [hp] at ih
            exact ih.cons c

/-- A stretch without an end belongs to the first piece of what follows. -/
theorem piecesAfter_append {α : Type} {ends : α → Bool} {stretch : List α} (rest : List α)
    (hne : stretch ≠ []) (h : ∀ a ∈ stretch, ends a = false) :
    piecesAfter ends (stretch ++ rest) = match piecesAfter ends rest with
      | [] => [stretch]
      | piece :: pieces => (stretch ++ piece) :: pieces := by
  induction stretch with
  | nil => exact absurd rfl hne
  | cons a stretch ih =>
      have ha : ¬ ends a = true := Bool.eq_false_iff.mp (h a List.mem_cons_self)
      rw [List.cons_append, piecesAfter, if_neg ha]
      cases stretch with
      | nil => rfl
      | cons b stretch =>
          rw [ih nofun fun c hc => h c (List.mem_cons_of_mem a hc)]
          cases piecesAfter ends rest <;> rfl

/-- Only a newline has the byte of a newline in its code. -/
theorem newline_byte {c : Char} (h : c ≠ '\n') : ∀ b ∈ String.utf8EncodeChar c, (b == 10) = false := by
  have hv : c.val.toNat ≠ 10 := fun hv => h (Char.toNat_inj.mp hv)
  have hbyte {n : Nat} (hn : n % 256 ≠ 10) : (UInt8.ofNat n == 10) = false := by
    refine beq_false_of_ne fun he => hn ?_
    rw [← UInt8.toNat_ofNat', he]
    rfl
  unfold String.utf8EncodeChar
  simp only
  split_ifs
  all_goals simp only [List.forall_mem_cons]
  · exact ⟨hbyte (by omega), nofun⟩
  · exact ⟨hbyte (by omega), hbyte (by omega), nofun⟩
  · exact ⟨hbyte (by omega), hbyte (by omega), hbyte (by omega), nofun⟩
  · exact ⟨hbyte (by omega), hbyte (by omega), hbyte (by omega), hbyte (by omega), nofun⟩

theorem utf8EncodeChar_ne_nil (c : Char) : String.utf8EncodeChar c ≠ [] := by
  unfold String.utf8EncodeChar
  simp only
  split_ifs <;> exact nofun

/-- The bytes of a text are cut where the text is. -/
theorem piecesAfter_utf8 (text : List Char) :
    piecesAfter (· == 10) (text.flatMap String.utf8EncodeChar) =
      (piecesAfter (· == '\n') text).map (·.flatMap String.utf8EncodeChar) := by
  induction text with
  | nil => rfl
  | cons c text ih =>
      rw [List.flatMap_cons]
      by_cases hc : c = '\n'
      · rw [hc]
        exact congrArg (_ :: ·) ih
      · have hb : ¬ (c == '\n') = true := fun h => hc (eq_of_beq h)
        rw [piecesAfter_append _ (utf8EncodeChar_ne_nil c) (newline_byte hc), ih]
        conv_rhs => rw [piecesAfter, if_neg hb]
        cases piecesAfter (· == '\n') text with
        | nil => simp
        | cons piece pieces => simp

/-- **The source of a text in bytes is that of the text.** -/
theorem ofBytes_toUTF8 (text : String) : ofBytes text.toUTF8.data.toList = ofText text.toList := by
  have hbytes (line : List Char) :
      ByteArray.mk (line.flatMap String.utf8EncodeChar).toArray = (String.ofList line).toUTF8 := by
    refine ByteArray.ext ?_
    show _ = (String.ofList line).toByteArray.data
    rw [String.toByteArray_ofList]
    exact List.data_toByteArray.symm
  have hline (line : List Char) :
      (String.fromUTF8? (ByteArray.mk (line.flatMap String.utf8EncodeChar).toArray)).map (·.toList) =
        some line := by
    have hvalid : (String.ofList line).toUTF8.IsValidUTF8 := (String.ofList line).isValidUTF8
    rw [hbytes, String.fromUTF8?, dif_pos hvalid]
    exact congrArg some String.toList_ofList
  have htext : text.toUTF8.data.toList = text.toList.flatMap String.utf8EncodeChar := by
    have h := congrArg (fun b => b.data.toList) (hbytes text.toList)
    rw [String.ofList_toList] at h
    exact h.symm
  show Input.mk [] (List.map _ _) = Input.mk [] _
  rw [htext, piecesAfter_utf8, List.map_map]
  exact congrArg (Input.mk []) (List.map_congr_left fun line _ => hline line)

theorem ahead_ofBytes (text : String) : (ofBytes text.toUTF8.data.toList).Ahead text.toList := by
  rw [ofBytes_toUTF8]
  exact ⟨text.toList, linesOf_piecesAfter text.toList, rfl⟩

/-! ## 3. Reads -/

/-- The answer of an input to a request. -/
def answer : Request → Action Input Reply
  | .line => .line <$> readLine
  | .char => .char <$> readChar

variable {pending text : List Char} {lines : List (Option (List Char))}

/-- The source hands over a line with its newline, or all that is left. -/
theorem fetch_of_linesOf (pending : List Char) (h : LinesOf lines text) :
    ∃ line lines' later, fetch ⟨pending, lines⟩ = .ok line ⟨pending, lines'⟩ ∧ LinesOf lines' later ∧
      text = line ++ later ∧ ('\n' ∈ line ∨ later = []) := by
  cases h with
  | none => exact ⟨[], [], [], rfl, .none, rfl, .inr rfl⟩
  | last h => exact ⟨text, [], [], rfl, .none, (List.append_nil text).symm, .inr rfl⟩
  | more h later => exact ⟨_, _, _, rfl, later, rfl, .inl h⟩

theorem eq_nil_of_no_line {later : List Char} (h : '\n' ∈ ([] : List Char) ∨ later = []) :
    later = [] :=
  h.resolve_left List.not_mem_nil

theorem readChar_of_ahead {input : Input} (h : input.Ahead text) :
    ∃ input', readChar input = .ok text.head? input' ∧ input'.Ahead (text.drop 1) := by
  obtain ⟨pending, lines⟩ := input
  obtain ⟨later, hl, rfl⟩ := h
  unfold readChar
  rw [get_bind]
  cases pending with
  | nil =>
      obtain ⟨line, lines', more, hf, hl', rfl, hline⟩ := fetch_of_linesOf [] hl
      cases line with
      | nil =>
          cases eq_nil_of_no_line hline
          exact ⟨⟨[], lines'⟩, bind_of_ok hf, [], hl', rfl⟩
      | cons c rest => exact ⟨⟨rest, lines'⟩, bind_of_ok hf, more, hl', rfl⟩
  | cons c rest => exact ⟨⟨rest, lines⟩, rfl, later, hl, rfl⟩

/-- What `readLine` makes of the line it has in hand. -/
def cut (line : List Char) : Action Input (Option (List Char)) :=
  if line.isEmpty then
    return none
  else do
    modify fun input => { input with pending := (line.dropWhile (· != '\n')).drop 1 }
    return some (dropReturns (line.takeWhile (· != '\n')))

/-- The line in hand has its newline, or it is all that is left. -/
theorem readLine_eq_cut (pending : List Char) (h : LinesOf lines text) :
    ∃ line lines' later, readLine ⟨pending, lines⟩ = cut line ⟨[], lines'⟩ ∧ LinesOf lines' later ∧
      pending ++ text = line ++ later ∧ ('\n' ∈ line ∨ later = []) := by
  unfold readLine
  rw [get_bind, modify_bind]
  by_cases hn : '\n' ∈ pending
  · exact ⟨pending, lines, text, by rw [if_pos hn]; rfl, h, rfl, .inl hn⟩
  · obtain ⟨line, lines', later, hf, hl, rfl, hline⟩ := fetch_of_linesOf [] h
    refine ⟨pending ++ line, lines', later, ?_, hl, (List.append_assoc ..).symm, ?_⟩
    · have hheld : ((pending ++ ·) <$> fetch : Action Input (List Char)) ⟨[], lines⟩ =
          .ok (pending ++ line) ⟨[], lines'⟩ := bind_of_ok hf
      rw [if_neg hn]
      exact bind_of_ok hheld
    · exact hline.imp (List.mem_append_right pending) id

/-- What is taken of a line with a newline does not reach beyond the newline. -/
theorem line_split {line later : List Char} (h : '\n' ∈ line ∨ later = []) :
    (line ++ later).takeWhile (· != '\n') = line.takeWhile (· != '\n') ∧
      ((line ++ later).dropWhile (· != '\n')).drop 1 =
        (line.dropWhile (· != '\n')).drop 1 ++ later := by
  rcases h with h | rfl
  · induction line with
    | nil => cases h
    | cons c line ih =>
        by_cases hc : c = '\n'
        · rw [hc]
          exact ⟨rfl, rfl⟩
        · have hp : (c != '\n') = true := bne_iff_ne.mpr hc
          obtain ⟨ht, hd⟩ := ih ((List.mem_cons.mp h).resolve_left (Ne.symm hc))
          simp only [List.cons_append, List.takeWhile_cons, List.dropWhile_cons, hp, ↓reduceIte, ht, hd,
            and_self]
  · rw [List.append_nil, List.append_nil]
    exact ⟨rfl, rfl⟩

theorem readLine_of_ahead {input : Input} (h : input.Ahead text) :
    ∃ input', readLine input = .ok (if text = [] then none
        else some (dropReturns (text.takeWhile (· != '\n')))) input' ∧
      input'.Ahead ((text.dropWhile (· != '\n')).drop 1) := by
  obtain ⟨pending, lines⟩ := input
  obtain ⟨later, hl, rfl⟩ := h
  obtain ⟨line, lines', more, hcut, hl', htext, hend⟩ := readLine_eq_cut pending hl
  rw [htext, hcut]
  cases line with
  | nil =>
      cases eq_nil_of_no_line hend
      exact ⟨⟨[], lines'⟩, rfl, [], hl', rfl⟩
  | cons c line =>
      obtain ⟨ht, hd⟩ := line_split hend
      refine ⟨⟨((c :: line).dropWhile (· != '\n')).drop 1, lines'⟩, ?_, more, hl', hd⟩
      rw [ht]
      rfl

/-- A line that is asked for takes a newline, or leaves nothing. -/
theorem newline_mem_share (text : List Char) :
    '\n' ∈ Request.share .line text ∨ Request.rest .line text = [] := by
  show '\n' ∈ _ ++ (text.dropWhile (· != '\n')).take 1 ∨ (text.dropWhile (· != '\n')).drop 1 = []
  cases hd : text.dropWhile (· != '\n') with
  | nil => exact .inr rfl
  | cons c later =>
      have hc := List.head?_dropWhile_not (· != '\n') text
      rw [hd] at hc
      have hc : c = '\n' := by simpa using hc
      rw [hc]
      exact .inl (List.mem_append_right _ List.mem_cons_self)

theorem reply_line (text : List Char) :
    Request.reply .line (Request.share .line text) = .line (if text = [] then none
      else some (dropReturns (text.takeWhile (· != '\n')))) := by
  have htext := Request.share_append_rest .line text
  have htake := (line_split (newline_mem_share text)).1
  have hnil : Request.share .line text = [] ↔ text = [] := by
    constructor
    · intro h
      have hrest := newline_mem_share text
      rw [h] at hrest htext
      rw [← htext, eq_nil_of_no_line hrest]
      rfl
    · rintro rfl
      rfl
  rw [htext] at htake
  unfold Request.reply
  simp only [hnil, ← htake]
  rfl

/-- **A request gets the reply made of its share of the text ahead**, and leaves the rest of it. -/
theorem answer_of_ahead {input : Input} (h : input.Ahead text) (request : Request) :
    ∃ input', answer request input = .ok (request.reply (request.share text)) input' ∧
      input'.Ahead (request.rest text) := by
  cases request with
  | line =>
      obtain ⟨input', hr, h'⟩ := readLine_of_ahead h
      rw [reply_line]
      exact ⟨input', bind_of_ok hr, h'⟩
  | char =>
      obtain ⟨input', hr, h'⟩ := readChar_of_ahead h
      have hshare : (text.take 1).head? = text.head? := by cases text <;> rfl
      refine ⟨input', ?_, h'⟩
      show answer .char input = .ok (.char (text.take 1).head?) input'
      rw [hshare]
      exact bind_of_ok hr

end Input

end ZMachine
