import Changelog.Text.Width.Classes

/-!
The number of columns a text takes on a character grid. Most characters take one column, wide ones
two and combining ones none, but some sequences are drawn as one sign. Reading the text from its
end, a small state remembers the sequence that the characters read so far could complete.
-/

namespace Changelog.Text

/-- The sequence that may be completed by the character before. -/
inductive Pending where
  | nothing
  | lineFeed
  /-- A skin tone. -/
  | tone
  /-- One letter of a flag, or more of them. -/
  | flagLetter
  | flagLetters
  | picture
  /-- A joiner before a picture; then what may stand before that joiner. -/
  | joiner
  | joinerKeycap
  | joinerFlagLetter
  | joinerFlagLettersEven
  | joinerFlagLettersOdd
  /-- The end of a regional flag, with the number of letters and of digits before it. -/
  | joinerTagLetters (count : Nat)
  | joinerTagDigits (count : Nat)
  | alef
  | lamed (joined : Bool)
  | ya (joined : Bool)
  | signYa
  | tifinagh (joined : Bool)
  | tifinaghJoiner
  | lisuTone
  | orkhonI (joined : Bool)
  | khmerLetter
  | kiratE
  | kiratAi
deriving DecidableEq, Repr

/-- What a variation selector asks of the character before it. -/
inductive Selector where
  /-- To be drawn as text. -/
  | text
  /-- To be drawn as a picture. -/
  | picture
  /-- To fill a cell of full width, as quotation marks can. -/
  | fullWidth
deriving DecidableEq, Repr

/-- The request that a variation selector stands for. -/
def Selector.ofChar? (c : Char) : Option Selector :=
  if c = '\uFE0F' then some .picture
  else if c = '\uFE0E' then some .text
  else if c = '\uFE01' then some .fullWidth
  else none

/-- What is known about the text to the right: the sequence begun there, and the requests of the
variation selectors directly to the right. -/
structure RightContext where
  pending : Pending := .nothing
  text : Bool := false
  picture : Bool := false
  fullWidth : Bool := false
deriving DecidableEq, Repr

namespace Pending

/-- Ligatures of letters, which a variation selector does not break. -/
def isLigature : Pending → Bool
  | alef | lamed _ | ya _ | signYa | tifinagh _ | tifinaghJoiner | lisuTone | orkhonI _
  | khmerLetter => true
  | _ => false

/-- Ligatures that marks of the class `ligatureTransparent` do not break either. -/
def isTransparent (p : Pending) : Bool :=
  p.isLigature && p != alef

/-- A joiner stands before the letter. -/
def join : Pending → Pending
  | lamed _ => lamed true
  | ya _ => ya true
  | tifinagh _ => tifinagh true
  | orkhonI _ => orkhonI true
  | p => p

/-- Pictures behind a joiner, which take no column of their own. -/
def isJoinedPicture (p : Pending) : Bool :=
  p == joiner || p == joinerKeycap

end Pending

/-- Records the request of a selector. In front of a ligature it joins the requests read before; a
request for a picture also leaves joined pictures whole. Elsewhere it replaces all that is known. -/
def RightContext.select (r : RightContext) (s : Selector) : RightContext :=
  let kept := r.pending.isLigature || (s = .picture && r.pending.isJoinedPicture)
  let r : RightContext := if kept then r else {}
  match s with
  | .text => { r with text := true }
  | .picture => { r with picture := true }
  | .fullWidth => { r with fullWidth := true }

/-- Drops a request for a picture that the next character does not meet, and with it any sequence
that is no ligature. -/
def RightContext.dropPicture (r : RightContext) : RightContext :=
  if !r.picture then r
  else if r.pending.isLigature then { r with picture := false }
  else {}

/-- Quotation marks, which a selector can give full width. -/
def isQuotationMark (c : Char) : Bool :=
  c = '\u2018' || c = '\u2019' || c = '\u201C' || c = '\u201D'

private def isFlagLetter (c : Char) : Bool := 0x1F1E6 ≤ c.toNat && c.toNat ≤ 0x1F1FF
private def isTone (c : Char) : Bool := 0x1F3FB ≤ c.toNat && c.toNat ≤ 0x1F3FF
private def isTagLetter (c : Char) : Bool := 0xE0061 ≤ c.toNat && c.toNat ≤ 0xE007A
private def isTagDigit (c : Char) : Bool := 0xE0030 ≤ c.toNat && c.toNat ≤ 0xE0039
private def zeroWidthJoiner : Char := '\u200D'

/-- A character on its own: its columns and what it may complete with the character before. -/
def charWidth (c : Char) : Int × Pending :=
  let n := c.toNat
  if n ≤ 0xA0 then (1, if c = '\n' then .lineFeed else .nothing)
  else if n == 0x5DC then (1, .lamed false)
  else if alef.has c then (1, .alef)
  else if khmerSubscript.has c then (1, .khmerLetter)
  else if n == 0x17D8 then (3, .nothing)
  else if n == 0x1A10 then (1, .ya false)
  else if tifinagh.has c then (1, .tifinagh false)
  else if n == 0xA4FC || n == 0xA4FD then (1, .lisuTone)
  else if n == 0x10C03 then (1, .orkhonI false)
  else if n == 0x16D67 then (1, .kiratE)
  else if n == 0x16D68 then (1, .kiratAi)
  else if isFlagLetter c then (1, .flagLetter)
  else if isTone c then (2, .tone)
  else if emojiPresentation.has c then (2, .picture)
  else if zeroWidth.has c then (0, .nothing)
  else if wide.has c then (2, .nothing)
  else (1, .nothing)

/-- The columns of a sequence that `c` completes or carries on, and what remains to be completed. -/
def sequenceWidth? (c : Char) (pending : Pending) : Option (Int × Pending) :=
  let n := c.toNat
  match pending with
  | .alef =>
    if lam.has c then some (0, .nothing)
    else if zeroWidth.has c && !ligatureBreaking.has c then some (0, .alef)
    else none
  | .lamed true => if n = 0x5D0 then some (0, .nothing) else none
  | .khmerLetter => if n = 0x17D2 then some (-1, .nothing) else none
  | .ya true => if n = 0x1A17 then some (0, .signYa) else none
  | .signYa => if n = 0x1A15 then some (0, .nothing) else none
  | .tifinagh joined =>
    if n = 0x2D7F then some (1, .tifinaghJoiner)
    else if joined && tifinagh.has c then some (0, .nothing)
    else none
  | .tifinaghJoiner => if tifinagh.has c then some (-1, .nothing) else none
  | .lisuTone => if 0xA4F8 ≤ n ∧ n ≤ 0xA4FB then some (0, .nothing) else none
  | .orkhonI true => if n = 0x10C32 then some (0, .nothing) else none
  | .kiratE =>
    if n = 0x16D63 ∨ n = 0x16D69 then some (0, .nothing)
    else if n = 0x16D67 then some (0, .kiratAi)
    else if n = 0x16D68 then some (1, .kiratE)
    else none
  | .kiratAi => if n = 0x16D63 then some (0, .nothing) else none
  | .tone =>
    if toneBase.has c then some (0, .picture)
    else if c = zeroWidthJoiner then some (0, .joiner)
    else none
  | .flagLetter => if isFlagLetter c then some (1, .flagLetters) else none
  | .flagLetters =>
    if isFlagLetter c then some (1, .flagLetters)
    else if c = zeroWidthJoiner then some (0, .joiner)
    else none
  | .picture => if c = zeroWidthJoiner then some (0, .joiner) else none
  | .joiner =>
    if n = 0x20E3 then some (0, .joinerKeycap)
    else if isFlagLetter c then some (1, .joinerFlagLetter)
    else if isTone c then some (0, .tone)
    else if n = 0xE007F then some (0, .joinerTagLetters 0)
    else if emojiPresentation.has c then some (0, .picture)
    else none
  | .joinerFlagLetter => if isFlagLetter c then some (-1, .joinerFlagLettersEven) else none
  | .joinerFlagLettersOdd =>
    if isFlagLetter c then some (-1, .joinerFlagLettersEven)
    else if c = zeroWidthJoiner then some (0, .joiner)
    else none
  | .joinerFlagLettersEven =>
    if isFlagLetter c then some (3, .joinerFlagLettersOdd)
    else if c = zeroWidthJoiner then some (0, .joiner)
    else none
  | .joinerTagLetters count =>
    if isTagLetter c ∧ count < 6 then some (0, .joinerTagLetters (count + 1))
    else if isTagDigit c ∧ count ≤ 4 then some (0, .joinerTagDigits 1)
    else if n = 0x1F3F4 ∧ 3 ≤ count then some (0, .picture)
    else none
  | .joinerTagDigits count =>
    if isTagDigit c ∧ count < 3 then some (0, .joinerTagDigits (count + 1))
    else if n = 0x1F3F4 ∧ count = 3 then some (0, .picture)
    else none
  | _ => none

/-- The columns that `c` adds to the text on its right. -/
def stepWidth (c : Char) (right : RightContext) : Int × RightContext :=
  if right.picture ∧ pictureBase.has c then
    (if right.pending.isJoinedPicture then 0 else 2, { pending := .picture })
  else
    let right := right.dropPicture
    if c.toNat ≤ 0xA0 then
      if c = '\r' ∧ right = { pending := .lineFeed } then (0, {})
      else (1, { pending := if c = '\n' then .lineFeed else .nothing })
    else
      match Selector.ofChar? c with
      | some selector => (0, right.select selector)
      | none =>
        if right.text ∧ narrowedByText.has c then (1, {})
        else if right.fullWidth ∧ isQuotationMark c then (2, {})
        else if right.pending.isTransparent ∧ c = zeroWidthJoiner then
          (0, { pending := right.pending.join })
        else if right.pending.isTransparent ∧ ligatureTransparent.has c then
          (0, { pending := right.pending })
        else
          let (columns, pending) := (sequenceWidth? c right.pending).getD (charWidth c)
          (columns, { pending })

/-- Columns of the text and what its first character leaves to be completed. -/
def widthFrom : Text → Int × RightContext
  | [] => (0, {})
  | c :: rest =>
    let (columns, right) := widthFrom rest
    let (more, left) := stepWidth c right
    (columns + more, left)

/-- Columns that the text takes on a character grid. -/
def width (text : Text) : Nat :=
  (widthFrom text).1.toNat

end Changelog.Text
