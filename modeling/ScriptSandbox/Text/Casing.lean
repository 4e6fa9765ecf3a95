import ScriptSandbox.Text.CaseTable
import ScriptSandbox.Text.Alphabetic
/-!
Upper and lower case of characters and of texts. A text's lower case writes a capital sigma that
ends a word in its final form; a single character has no such context.
-/

namespace ScriptSandbox.Text

def isAsciiUpper (c : Char) : Bool := 'A' ≤ c && c ≤ 'Z'

def isAsciiLower (c : Char) : Bool := 'a' ≤ c && c ≤ 'z'

/-- The letter a run gives, or the character itself. -/
def mappedOrSelf (c : Char) (runs : List CaseRun) : List Char :=
  match mapRun c.toNat runs with
  | some code => [Char.ofNat code]
  | none => [c]

/-- The upper case of a character. -/
def upper (c : Char) : List Char :=
  if c.toNat < 0x80 then
    if isAsciiLower c then [Char.ofNat (c.toNat - 32)] else [c]
  else
    match upperSequences.lookup c.toNat with
    | some codes => codes.map Char.ofNat
    | none => mappedOrSelf c upperRuns

/-- The lower case of a character. The dotted capital I is the one that needs two characters. -/
def lower (c : Char) : List Char :=
  if c.toNat < 0x80 then
    if isAsciiUpper c then [Char.ofNat (c.toNat + 32)] else [c]
  else if c = '\u0130' then ['i', '\u0307']
  else mappedOrSelf c lowerRuns

def isCased (c : Char) : Bool := inRanges c.toNat casedRanges

def isCaseIgnorable (c : Char) : Bool := inRanges c.toNat caseIgnorableRanges

/-- Whether the first character that casing does not look through is a cased one. -/
def meetsCased (text : List Char) : Bool :=
  match text.dropWhile isCaseIgnorable with
  | [] => false
  | c :: _ => isCased c

/-- The lower case of a text behind the image of its start. `before` holds the characters already
passed and `image` their lower case, both nearest first. -/
def lowerFrom (before image : List Char) : List Char → List Char
  | [] => image.reverse
  | c :: rest =>
    let next :=
      if c = '\u03A3' then
        if meetsCased before && !meetsCased rest then ['\u03C2'] else ['\u03C3']
      else lower c
    lowerFrom (c :: before) (next.reverse ++ image) rest

def lowerText (text : List Char) : List Char := lowerFrom [] [] text

def upperText (text : List Char) : List Char := text.flatMap upper

/-- The first letter of each word in upper case and its other letters in lower case, behind the
image of the text before, which is held in reverse. -/
def titleFrom (inWord : Bool) (image : List Char) : List Char → List Char
  | [] => image.reverse
  | c :: rest =>
    if isAlphabetic c then
      titleFrom true ((if inWord then lower c else upper c).reverse ++ image) rest
    else titleFrom false (c :: image) rest

def titleText (text : List Char) : List Char := titleFrom false [] text

/-- The first character in upper case and the others in lower case. -/
def capitalizeText : List Char → List Char
  | [] => []
  | c :: rest => upper c ++ rest.flatMap lower

/-- A sigma is final only behind a letter and before none. -/
example : lowerText "ΑΣ Σ".toList = "ας σ".toList ∧ upperText "ß".toList = "SS".toList := by
  decide +kernel

end ScriptSandbox.Text
