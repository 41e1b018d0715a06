import Mathlib.Data.List.DropRight
import GbStream.Support.CString

/-!
# The text of a session description under the scanner

`sdp.c` scans one buffer from front to back and cuts the tokens it has found by writing
NUL bytes over what follows them.
-/

namespace GbStream.Sdp

open Support.CString

def byte (c : Char) : UInt8 := c.toNat.toUInt8

def ascii (s : String) : List UInt8 := s.toList.map byte

def space : UInt8 := 32
def tab : UInt8 := 9
def cr : UInt8 := 13
def lf : UInt8 := 10
def colon : UInt8 := 58

/-- Why parsing ends without a session: a `-1`, a failed assertion, an access outside
the text, a store outside an array, or a loop that needs more rounds. -/
inductive Stop
  | failed
  | assertFailed
  | outOfBounds
  | badSlot
  | outOfFuel
  deriving DecidableEq, Repr

/-- `raw` with its terminator, and the parse offset. -/
structure Text where
  raw : List UInt8
  offset : Nat
  deriving DecidableEq, Repr

structure Token where
  ptr : Nat
  n : Nat
  deriving DecidableEq, Repr

def Token.stop (tok : Token) : Nat := tok.ptr + tok.n

namespace Text

def advance (t : Text) (n : Nat) : Text := { t with offset := t.offset + n }

@[simp] theorem raw_advance (t : Text) (n : Nat) : (t.advance n).raw = t.raw := rfl

@[simp] theorem offset_advance (t : Text) (n : Nat) : (t.advance n).offset = t.offset + n := rfl

/-- `sdp->raw[sdp->offset]` -/
def char (t : Text) : Except Stop UInt8 :=
  match t.raw[t.offset]? with
  | none => .error .outOfBounds
  | some c => .ok c

def isBlank (c : UInt8) : Bool := c = space ∨ c = tab

def skipSpace (t : Text) : Except Stop Text :=
  match scan isBlank (t.raw.drop t.offset) with
  | none => .error .outOfBounds
  | some n => .ok (t.advance n)

/-- `sdp_token_word`; `strcspn` stops at the terminator too. -/
def tokenWord (escape : List UInt8) (t : Text) : Except Stop (Token × Text) :=
  match scan (fun c => c ≠ 0 ∧ c ∉ escape) (t.raw.drop t.offset) with
  | none => .error .outOfBounds
  | some n => .ok (⟨t.offset, n⟩, t.advance n)

/-- `sdp_token_crlf`; every caller gives up when it returns `-1`. -/
def tokenCrlf (t : Text) : Except Stop Text := do
  let c ← t.char
  let t := if c = cr then t.advance 1 else t
  let c ← t.char
  if c = lf then .ok (t.advance 1)
  else if c = 0 then .ok t
  else .error .failed

/-- The loop of `trim_right`, by the length that is left. -/
def trimRight (raw : List UInt8) (ptr : Nat) : Nat → Except Stop Nat
  | 0 => .ok 0
  | n + 1 =>
      match raw[ptr + n]? with
      | none => .error .outOfBounds
      | some c => if c = space then trimRight raw ptr n else .ok (n + 1)

def trim (t : Text) (tok : Token) : Except Stop Token := do
  let n ← trimRight t.raw tok.ptr tok.n
  .ok { tok with n }

/-- `tok[n] = 0` -/
def terminate (t : Text) (tok : Token) : Except Stop Text :=
  if tok.stop < t.raw.length then .ok { t with raw := t.raw.set tok.stop 0 }
  else .error .outOfBounds

def terminateAll (t : Text) : List Token → Except Stop Text
  | [] => .ok t
  | tok :: toks => do
      let t ← t.terminate tok
      t.terminateAll toks

end Text

/-! ## What is left to read -/

def blankEol : List UInt8 := [space, tab, cr, lf]
def eol : List UInt8 := [cr, lf]
def colonEol : List UInt8 := [colon, cr, lf]

def skipBlanks (xs : List UInt8) : List UInt8 := xs.dropWhile Text.isBlank

/-- The token at the front, up to the first byte of `escape`. -/
def upTo (escape xs : List UInt8) : List UInt8 := xs.takeWhile fun c => c ∉ escape

/-- What follows that token. -/
def behind (escape xs : List UInt8) : List UInt8 := xs.dropWhile fun c => c ∉ escape

def trimmed (w : List UInt8) : List UInt8 := w.rdropWhile fun c => c = space

def afterLineFeed : List UInt8 → Option (List UInt8)
  | [] => some []
  | c :: rest => if c = lf then some rest else none

/-- What follows the end of the line, with a carriage return or without. -/
def lineEnd (xs : List UInt8) : Option (List UInt8) :=
  afterLineFeed (if xs.head? = some cr then xs.tail else xs)

/-- The scanner stands before `xs`, which the terminator follows.  Only the end of the
text may lie in front of the end of the memory. -/
structure At (t : Text) (xs : List UInt8) : Prop where
  drop : ∃ junk, t.raw.drop t.offset = xs ++ 0 :: junk ∧ (xs ≠ [] → junk = [])
  noNul : 0 ∉ xs

variable {t u : Text} {xs w : List UInt8}

theorem At.advance (h : At t (w ++ xs)) : At (t.advance w.length) xs where
  drop := by
    obtain ⟨junk, hdrop, hjunk⟩ := h.drop
    refine ⟨junk, ?_, fun hne => hjunk (List.append_ne_nil_of_right_ne_nil _ hne)⟩
    rw [Text.raw_advance, Text.offset_advance, ← List.drop_drop, hdrop, List.append_assoc,
      List.drop_left]
  noNul := fun hmem => h.noNul (List.mem_append_right _ hmem)

theorem At.getElem? (h : At t xs) (i : Nat) :
    ∃ junk, t.raw[t.offset + i]? = (xs ++ 0 :: junk)[i]? := by
  obtain ⟨junk, hdrop, -⟩ := h.drop
  exact ⟨junk, by rw [← List.getElem?_drop, hdrop]⟩

theorem At.offset_lt (h : At t xs) : t.offset + xs.length < t.raw.length := by
  obtain ⟨junk, hdrop, -⟩ := h.drop
  have hlength := congrArg List.length hdrop
  rw [List.length_drop, List.length_append, List.length_cons] at hlength
  omega

theorem At.spans (h : At t (w ++ xs)) : Spans t.raw t.offset w := by
  obtain ⟨junk, hdrop, -⟩ := h.drop
  rw [List.append_assoc] at hdrop
  exact spans_of_drop hdrop

theorem At.char (h : At t xs) : t.char = .ok (xs.headD 0) := by
  obtain ⟨junk, hdrop⟩ := h.getElem? 0
  rw [Nat.add_zero] at hdrop
  rw [Text.char, hdrop]
  cases xs <;> rfl

theorem At.skipSpace (h : At t xs) :
    ∃ n, t.skipSpace = .ok (t.advance n) ∧ At (t.advance n) (skipBlanks xs) ∧
      n + (skipBlanks xs).length = xs.length := by
  obtain ⟨junk, hdrop, -⟩ := h.drop
  have hsplit : xs.takeWhile Text.isBlank ++ skipBlanks xs = xs := List.takeWhile_append_dropWhile
  refine ⟨(xs.takeWhile Text.isBlank).length, ?_, ?_, ?_⟩
  · rw [Text.skipSpace, hdrop, scan_append (by decide)]
  · apply At.advance
    rwa [hsplit]
  · rw [← List.length_append, hsplit]

theorem skipBlanks_eq_self (h : (skipBlanks xs).length = xs.length) : skipBlanks xs = xs :=
  (List.dropWhile_suffix _).eq_of_length h

theorem At.tokenWord (h : At t xs) (escape : List UInt8) :
    t.tokenWord escape =
        .ok (⟨t.offset, (upTo escape xs).length⟩, t.advance (upTo escape xs).length) ∧
      At (t.advance (upTo escape xs).length) (behind escape xs) := by
  obtain ⟨junk, hdrop, -⟩ := h.drop
  have hsplit : upTo escape xs ++ behind escape xs = xs := List.takeWhile_append_dropWhile
  constructor
  · have htake : xs.takeWhile (fun c => decide (c ≠ 0 ∧ c ∉ escape)) = upTo escape xs := by
      have hself : (upTo escape xs).takeWhile (fun c => decide (c ≠ 0)) = upTo escape xs := by
        rw [List.takeWhile_eq_self_iff]
        intro c hc
        rw [decide_eq_true_iff]
        rintro rfl
        exact h.noNul ((List.takeWhile_sublist _).subset hc)
      rw [← hself, upTo, List.takeWhile_takeWhile]
      simp
    rw [Text.tokenWord, hdrop, scan_append (by simp), htake]
  · apply At.advance
    rwa [hsplit]

end GbStream.Sdp
