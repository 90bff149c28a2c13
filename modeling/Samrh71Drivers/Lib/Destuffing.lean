import Samrh71Drivers.Lib.Stuffing

/-!
# Decoding a stuffed stream

A code with an escape symbol marks every symbol that could be mistaken for a delimiter. Its
decoder reads one symbol at a time: it waits for a start symbol, collects the symbols of the
message in a buffer of bounded size, and hands the message over at the stop symbol. A start
symbol inside a message begins a new one.

The decoder keeps its place between two calls, so how a stream is cut into pieces does not
matter (`feed_append`), and from every place but the one after an escape it decodes the next
frame (`feed_frame`). That also holds where the previous frame has lost its stop symbol: its
message is dropped and the next one is not (`feed_unfinished`).

## Main definitions

* `EscapeCode`, `EscapeCode.stuffing` — the code.
* `Place` — where the decoder is.
* `EscapeCode.step`, `EscapeCode.feed` — one symbol, and a piece of a stream.
-/

universe u

/-- Two delimiters and an escape symbol, no two of them the same. -/
structure EscapeCode (β : Type u) where
  start : β
  escape : β
  stop : β
  start_ne_escape : start ≠ escape
  start_ne_stop : start ≠ stop
  escape_ne_stop : escape ≠ stop

/-- Where a decoder is. -/
inductive Place (β : Type u)
  /-- Between two frames. -/
  | idle
  /-- In a message, of which these symbols have been read. -/
  | inside (message : List β)
  /-- The same, after an escape symbol. -/
  | escaped (message : List β)
  deriving DecidableEq

/-- The next symbol is read for what it is. -/
def Place.ready {β : Type u} : Place β → Prop
  | .idle | .inside _ => True
  | .escaped _ => False

namespace EscapeCode

variable {β : Type u} [DecidableEq β] (c : EscapeCode β)

/-- A delimiter or an escape symbol in a message is preceded by an escape symbol. -/
def stuffing : Stuffing β where
  start := c.start
  stop := c.stop
  word b := if b = c.start ∨ b = c.escape ∨ b = c.stop then [c.escape, b] else [b]
  word_ne_nil b := by split <;> simp

/-- Put a symbol in a buffer of `capacity` symbols. A message that does not fit is dropped. -/
def store (capacity : ℕ) (message : List β) (b : β) : Place β :=
  if message.length < capacity then .inside (message ++ [b]) else .idle

omit [DecidableEq β] in
theorem store_of_lt {capacity : ℕ} {message : List β} (h : message.length < capacity) (b : β) :
    store capacity message b = .inside (message ++ [b]) := if_pos h

/-- One symbol, with the message that is complete with it. -/
def step (capacity : ℕ) : Place β → β → Place β × Option (List β)
  | .idle, b => (if b = c.start then .inside [] else .idle, none)
  | .inside message, b =>
    if b = c.start then (.inside [], none)
    else if b = c.escape then (.escaped message, none)
    else if b = c.stop then (.idle, some message)
    else (store capacity message b, none)
  | .escaped message, b => (store capacity message b, none)

/-- A piece of a stream, with the messages that are complete in it. -/
def feed (capacity : ℕ) : Place β → List β → Place β × List (List β)
  | p, [] => (p, [])
  | p, b :: bs =>
    let r := c.step capacity p b
    let r' := feed capacity r.1 bs
    (r'.1, r.2.toList ++ r'.2)

variable {c} {capacity : ℕ} {p : Place β} {message d : List β}

@[simp] theorem feed_nil : c.feed capacity p [] = (p, []) := rfl

theorem feed_cons (b : β) (bs : List β) : c.feed capacity p (b :: bs) =
    ((c.feed capacity (c.step capacity p b).1 bs).1,
      (c.step capacity p b).2.toList ++ (c.feed capacity (c.step capacity p b).1 bs).2) := rfl

/-- **Pieces.** A stream may be cut anywhere. -/
theorem feed_append (bs bs' : List β) : c.feed capacity p (bs ++ bs') =
    ((c.feed capacity (c.feed capacity p bs).1 bs').1,
      (c.feed capacity p bs).2 ++ (c.feed capacity (c.feed capacity p bs).1 bs').2) := by
  induction bs generalizing p with
  | nil => rfl
  | cons b bs ih => simp only [List.cons_append, feed_cons, ih, List.append_assoc]

/-- A start symbol that is read for what it is begins a message. -/
theorem step_start (h : p.ready) : c.step capacity p c.start = (.inside [], none) := by
  cases p with
  | idle => simp [step]
  | inside message => simp [step]
  | escaped message => exact h.elim

/-- The stop symbol ends a message. -/
theorem step_stop : c.step capacity (.inside message) c.stop = (.idle, some message) := by
  simp [step, c.start_ne_stop.symm, c.escape_ne_stop.symm]

/-- The word of a symbol adds that symbol to the message. -/
theorem feed_word (hroom : message.length < capacity) (b : β) :
    c.feed capacity (.inside message) (c.stuffing.word b) = (.inside (message ++ [b]), []) := by
  by_cases hb : b = c.start ∨ b = c.escape ∨ b = c.stop
  · have hword : c.stuffing.word b = [c.escape, b] := if_pos hb
    rw [hword]
    simp [feed_cons, step, c.start_ne_escape.symm, store_of_lt hroom]
  · have hword : c.stuffing.word b = [b] := if_neg hb
    rw [hword]
    simp only [not_or] at hb
    simp [feed_cons, step, hb, store_of_lt hroom]

/-- The body of a frame adds its message. -/
theorem feed_body (hroom : message.length + d.length ≤ capacity) :
    c.feed capacity (.inside message) (c.stuffing.body d) = (.inside (message ++ d), []) := by
  induction d generalizing message with
  | nil => simp
  | cons b d ih =>
    rw [List.length_cons] at hroom
    rw [Stuffing.body_cons, feed_append, feed_word (by omega) b, ih (by simp; omega)]
    simp

/-- **A frame without its stop symbol** hands nothing over and leaves the decoder ready. -/
theorem feed_unfinished (hp : p.ready) (hd : d.length ≤ capacity) :
    c.feed capacity p (c.start :: c.stuffing.body d) = (.inside d, []) := by
  rw [feed_cons, step_start hp, feed_body (by simpa using hd)]
  simp

/-- **A frame** hands its message over. -/
theorem feed_frame (hp : p.ready) (hd : d.length ≤ capacity) :
    c.feed capacity p (c.stuffing.frame d) = (.idle, [d]) := by
  have hframe : c.stuffing.frame d = (c.start :: c.stuffing.body d) ++ [c.stop] := rfl
  rw [hframe, feed_append, feed_unfinished hp hd, feed_cons, step_stop]
  rfl

end EscapeCode
