import ApiDiagrams.Text.Width

/-!
# Signs

What one reads as one sign may take several characters: a letter with its marks, a syllable of
conjoining letters, a flag of two regional letters, pictures with joiners between them.

* `Joint`: what is known of a sign while its characters are read;
* `Sign.first`: the sign at the front of a text, and its columns.
-/

namespace ApiDiagrams
namespace Text

/-- What is known of a sign while its characters are read. -/
inductive Joint
  | open_
  | control
  | lead
  | vowel
  | trail
  | prepend
  | picture
  /-- A picture with a joiner behind it. -/
  | joinedPicture
  | oneRegional
  | twoRegionals
  deriving DecidableEq, Repr

namespace Joint

/-- A sign that starts with a character of the given role. -/
def start : Role → Joint
  | .control => .control
  | .lead => .lead
  | .openSyllable | .vowel => .vowel
  | .closedSyllable | .trail => .trail
  | .prepend => .prepend
  | .picture => .picture
  | .regional => .oneRegional
  | .plain | .extend | .joiner | .spacing => .open_

/-- The sign with a further character, if the character belongs to it. -/
def add? : Joint → Role → Option Joint
  | .control, _ => none
  | _, .control => none
  | .lead, .lead => some .lead
  | .lead, .vowel | .lead, .openSyllable => some .vowel
  | .lead, .closedSyllable => some .trail
  | .vowel, .vowel => some .vowel
  | .vowel, .trail | .trail, .trail => some .trail
  | .picture, .extend => some .picture
  | .picture, .joiner => some .joinedPicture
  | .joinedPicture, .picture => some .picture
  | .oneRegional, .regional => some .twoRegionals
  | _, .extend | _, .joiner | _, .spacing => some .open_
  | .prepend, r => some (start r)
  | _, _ => none

end Joint

/-- A sign: its characters and its columns. -/
structure Sign where
  chars : List Char
  width : Nat

namespace Sign

/-- Asks for a picture as text, in one column. -/
def textSelector : Char := '\ufe0e'

/-- Asks for a picture in two columns. -/
def pictureSelector : Char := '\ufe0f'

/-- The columns of a sign of `w` columns with a further character. What starts with a picture, a
regional letter or a letter that starts a syllable does not grow. -/
def widen (first : Role) (w : Nat) (r : Role) (c : Char) : Nat :=
  match first with
  | .picture => if c == textSelector then 1 else if c == pictureSelector then 2 else w
  | .regional | .lead => w
  | _ => w + widthAs r c

/-- The further characters of a sign, with the columns of all of it. -/
def rest (first : Role) : Joint → (w : Nat) → List Char → List Char × Nat
  | _, w, [] => ([], w)
  | joint, w, c :: text =>
    let r := roleOf c
    match joint.add? r with
    | none => ([], w)
    | some joint =>
      let (cs, w) := rest first joint (widen first w r c) text
      (c :: cs, w)

/-- The sign that starts with a character, in front of a text. -/
def first (c : Char) (text : List Char) : Sign :=
  let r := roleOf c
  let (cs, w) := rest r (.start r) (widthAs r c) text
  ⟨c :: cs, w⟩

end Sign
end Text
end ApiDiagrams
