import Changelog.Text.Blank

/-!
Annotations inside plain text: underlined stretches `<u>content</u>` and links
`<link>address</link>(display)`, whose display part may be left out. Each annotation ends at the
first closing marker after its opening one.
-/

namespace Changelog

/-- A link as it is shown. -/
structure Hyperlink where
  url : Text
  display : Text
deriving DecidableEq, Repr

namespace Annotations

def underlineOpener : Text := ['<', 'u', '>']
def underlineCloser : Text := ['<', '/', 'u', '>']
def linkOpener : Text := ['<', 'l', 'i', 'n', 'k', '>']
def linkCloser : Text := ['<', '/', 'l', 'i', 'n', 'k', '>']

/-- An underlined stretch at the front of a text. -/
structure Underline where
  content : Text
deriving DecidableEq, Repr

/-- A link at the front of a text; `display` is what stands in the parentheses, if there are any. -/
structure Link where
  target : Text
  display : Option Text
deriving DecidableEq, Repr

def Underline.literal (u : Underline) : Text :=
  underlineOpener ++ u.content ++ underlineCloser

def Link.literal (l : Link) : Text :=
  linkOpener ++ l.target ++ linkCloser ++
    match l.display with
    | some display => '(' :: display ++ [')']
    | none => []

/-- What is drawn in place of the link, and where it leads. Without display text the address is
shown. -/
def Link.toHyperlink (l : Link) : Hyperlink :=
  let url := Text.trim l.target
  match l.display with
  | some (c :: display) => { url, display := c :: display }
  | _ => { url, display := url }

/-- Reads an underlined stretch at the front of the text. -/
def underline? (text : Text) : Option (Underline × Text) := do
  let inner ← Text.after? underlineOpener text
  let (content, rest) ← Text.cut? underlineCloser inner
  return (⟨content⟩, rest)

/-- Reads the display part in parentheses at the front of the text. -/
def display? : Text → Option (Text × Text)
  | '(' :: rest => Text.cut? [')'] rest
  | _ => none

/-- Reads a link at the front of the text. -/
def link? (text : Text) : Option (Link × Text) := do
  let inner ← Text.after? linkOpener text
  let (target, rest) ← Text.cut? linkCloser inner
  match display? rest with
  | some (display, rest) => return (⟨target, some display⟩, rest)
  | none => return (⟨target, none⟩, rest)

theorem eq_of_underline? {text rest : Text} {u : Underline}
    (h : underline? text = some (u, rest)) : text = u.literal ++ rest := by
  obtain ⟨inner, hInner, h⟩ := Option.bind_eq_some_iff.1 h
  obtain ⟨⟨content, tail⟩, hCut, h⟩ := Option.bind_eq_some_iff.1 h
  obtain ⟨rfl, rfl⟩ := by simpa using h
  rw [Text.after?_eq_some_iff.1 hInner, Text.eq_of_cut? hCut]
  simp [Underline.literal]

theorem eq_of_display? {text display rest : Text} (h : display? text = some (display, rest)) :
    text = '(' :: display ++ [')'] ++ rest := by
  unfold display? at h
  split at h
  · rw [Text.eq_of_cut? h]
    simp
  · simp at h

theorem eq_of_link? {text rest : Text} {l : Link} (h : link? text = some (l, rest)) :
    text = l.literal ++ rest := by
  obtain ⟨inner, hInner, h⟩ := Option.bind_eq_some_iff.1 h
  obtain ⟨⟨target, tail⟩, hCut, h⟩ := Option.bind_eq_some_iff.1 h
  rw [Text.after?_eq_some_iff.1 hInner, Text.eq_of_cut? hCut]
  dsimp only at h
  split at h
  · rename_i display more hDisplay
    obtain ⟨rfl, rfl⟩ := by simpa using h
    rw [eq_of_display? hDisplay]
    simp [Link.literal]
  · obtain ⟨rfl, rfl⟩ := by simpa using h
    simp [Link.literal]

theorem rest_length_lt_of_underline? {text rest : Text} {u : Underline}
    (h : underline? text = some (u, rest)) : rest.length < text.length := by
  rw [eq_of_underline? h]
  simp [Underline.literal, underlineOpener]
  omega

theorem rest_length_lt_of_link? {text rest : Text} {l : Link}
    (h : link? text = some (l, rest)) : rest.length < text.length := by
  rw [eq_of_link? h]
  simp [Link.literal, linkOpener]
  omega

/-- The underlined stretches of a text, from left to right. -/
def underlines (text : Text) : List Underline :=
  match _h : underline? text with
  | some (u, rest) => u :: underlines rest
  | none =>
    match text with
    | [] => []
    | _ :: rest => underlines rest
termination_by text.length
decreasing_by
  · exact rest_length_lt_of_underline? _h
  · simp

/-- The links of a text, from left to right. -/
def links (text : Text) : List Link :=
  match _h : link? text with
  | some (l, rest) => l :: links rest
  | none =>
    match text with
    | [] => []
    | _ :: rest => links rest
termination_by text.length
decreasing_by
  · exact rest_length_lt_of_link? _h
  · simp

/-- The underlined stretches as written. -/
def underlineLiterals (text : Text) : List Text :=
  (underlines text).map Underline.literal

/-- The links as written. -/
def linkLiterals (text : Text) : List Text :=
  (links text).map Link.literal

/-- The text with every underlined stretch replaced by its content. -/
def dropUnderlines (text : Text) : Text :=
  match _h : underline? text with
  | some (u, rest) => u.content ++ dropUnderlines rest
  | none =>
    match text with
    | [] => []
    | c :: rest => c :: dropUnderlines rest
termination_by text.length
decreasing_by
  · exact rest_length_lt_of_underline? _h
  · simp

/-- The text with every link replaced by what is shown of it. -/
def showLinks (text : Text) : Text :=
  match _h : link? text with
  | some (l, rest) => l.toHyperlink.display ++ showLinks rest
  | none =>
    match text with
    | [] => []
    | c :: rest => c :: showLinks rest
termination_by text.length
decreasing_by
  · exact rest_length_lt_of_link? _h
  · simp

/-- The text as it is drawn: links first, then underlines, also those that the display texts of
links bring in. -/
def stripMarkup (text : Text) : Text :=
  dropUnderlines (showLinks text)

/-- The first link of a text. -/
def hyperlink? (text : Text) : Option Hyperlink :=
  (links text).head?.map Link.toHyperlink

/-- The text without an underline marker at either end; a text without both stays. -/
def underlineContent (text : Text) : Text :=
  ((Text.after? underlineOpener text).bind (Text.before? underlineCloser)).getD text

end Annotations

end Changelog
