import ZMachine.Proofs.Input
import ZMachine.Proofs.Session.Running

/-!
# Lines and characters of one text

A session may ask for lines and characters in any order. Together they read one text: every request
takes its share from the front of what the requests before it have left, and nothing else of the
session changes. This is said of sinks that can pass on what they hold, since that is done before
every request.

* `Session.ask`, `askAll`    : a request, and one after the other.
* `Session.ask_of_ahead`     : what one request gets and leaves.
* `Session.reads_one_text`   : what any row of requests gets and leaves.
-/

namespace ZMachine.Session

open ZMachine.Action

variable {H : Host} {s : Session H}

/-- Asks for a line or a character. -/
def ask : Request → Exec H Reply
  | .line => .line <$> readLine
  | .char => .char <$> readChar

/-- Makes one request after the other. -/
def askAll : List Request → Exec H (List Reply)
  | [] => return []
  | request :: requests => do
      let reply ← ask request
      let replies ← askAll requests
      return reply :: replies

theorem map_onInput {α β : Type} (f : α → β) (action : Action Input α) (s : Session H) :
    (f <$> onInput action : Exec H β) s = onInput (f <$> action) s := by
  show (onInput action >>= fun a => pure (f a)) s = onInput (action >>= fun a => pure (f a)) s
  rw [bind_run]
  unfold onInput
  rw [bind_run]
  cases action s.input <;> rfl

/-- With a sink that passes on what it holds, all that is asked is the input. -/
theorem ask_eq_answer (request : Request) (hf : s.sink.flushFails = false) :
    ask request s = onInput (Input.answer request) s := by
  have hflush {α : Type} (action : Exec H α) : (flush >>= fun _ => action) s = action s :=
    bind_of_ok (flush_of_flushes hf)
  cases request with
  | line =>
      show (Reply.line <$> readLine : Exec H Reply) s = _
      unfold readLine
      rw [← bind_pure_comp, bind_assoc, hflush, bind_pure_comp]
      exact map_onInput Reply.line Input.readLine s
  | char =>
      show (Reply.char <$> readChar : Exec H Reply) s = _
      unfold readChar
      rw [← bind_pure_comp, bind_assoc, hflush, bind_pure_comp]
      exact map_onInput Reply.char Input.readChar s

/-- **One request**: the reply is made of its share of the text ahead, and the rest stays ahead. -/
theorem ask_of_ahead {text : List Char} (request : Request) (hf : s.sink.flushFails = false)
    (h : s.input.Ahead text) :
    ∃ input, ask request s = .ok (request.reply (request.share text)) { s with input } ∧
      input.Ahead (request.rest text) := by
  obtain ⟨input, ha, hrest⟩ := Input.answer_of_ahead h request
  refine ⟨input, ?_, hrest⟩
  rw [ask_eq_answer request hf]
  unfold onInput
  rw [ha]

/-- **One request after the other.** -/
theorem askAll_of_ahead {text : List Char} (requests : List Request)
    (hf : s.sink.flushFails = false) (h : s.input.Ahead text) :
    ∃ input, askAll requests s =
        .ok (List.zipWith Request.reply requests (Request.shares requests text).1) { s with input } ∧
      input.Ahead (Request.shares requests text).2 := by
  induction requests generalizing s text with
  | nil => exact ⟨s.input, rfl, h⟩
  | cons request requests ih =>
      obtain ⟨input, hask, hinput⟩ := ask_of_ahead request hf h
      have hf' : ({ s with input } : Session H).sink.flushFails = false := hf
      obtain ⟨input', hall, hinput'⟩ := ih hf' hinput
      refine ⟨input', ?_, hinput'⟩
      unfold askAll
      rw [bind_of_ok hask, bind_of_ok hall]
      rfl

/-- **Lines and characters read one text**: a session whose input is a text, asked for lines and
characters in any order, replies to each request with what is made of its share, and the shares make
up the text in order, together with what is left ahead. -/
theorem reads_one_text (text : String) (requests : List Request) (hf : s.sink.flushFails = false)
    (h : s.input = Input.ofBytes text.toUTF8.data.toList) :
    (∃ input, askAll requests s =
        .ok (List.zipWith Request.reply requests (Request.shares requests text.toList).1)
          { s with input } ∧
      input.Ahead (Request.shares requests text.toList).2) ∧
    (Request.shares requests text.toList).1.flatten ++ (Request.shares requests text.toList).2 =
      text.toList := by
  have hahead : s.input.Ahead text.toList := h ▸ Input.ahead_ofBytes text
  exact ⟨askAll_of_ahead requests hf hahead, Request.flatten_shares requests text.toList⟩

/-- A session without a story that has a text ahead. -/
def listening (text : String) : Session Host.standard :=
  { bare default with input := Input.ofBytes text.toUTF8.data.toList }

/-- A character, the rest of its line, the empty line after it as a character, a line without an
end, and nothing more. -/
theorem listening_replies :
    (listening "aé\r\r\n\nok").sink.flushFails = false ∧
      (listening "aé\r\r\n\nok").input = Input.ofBytes "aé\r\r\n\nok".toUTF8.data.toList ∧
      ∃ input, askAll [.char, .line, .char, .line, .line, .char] (listening "aé\r\r\n\nok") =
          .ok [.char (some 'a'), .line (some ['é']), .char (some '\n'), .line (some ['o', 'k']),
            .line none, .char none] { listening "aé\r\r\n\nok" with input } ∧
        input.Ahead [] := by
  have hs : Request.shares [.char, .line, .char, .line, .line, .char] "aé\r\r\n\nok".toList =
      ([['a'], ['é', '\r', '\r', '\n'], ['\n'], ['o', 'k'], [], []], []) := by decide
  obtain ⟨⟨input, hall, hahead⟩, -⟩ :=
    reads_one_text (s := listening "aé\r\r\n\nok") "aé\r\r\n\nok"
      [.char, .line, .char, .line, .line, .char] rfl rfl
  rw [hs] at hall hahead
  exact ⟨rfl, rfl, input, hall, hahead⟩

end ZMachine.Session
