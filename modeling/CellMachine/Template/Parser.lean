import CellMachine.Template.Directive
/-!
# Reading templates

A directive is, behind its percent sign,

    [N$] [flags] [width] [. precision] [length letters] conversion letter

where a width or a precision is a number, `*` or `*N$`.  Each part takes as much as it can.  A
percent sign that no directive follows is literal, and reading goes on right behind it.
-/

namespace CellMachine

/-- The largest number a template holds; larger ones count as this. -/
def numberLimit : Nat := 2 ^ (64 : Nat) - 1

/-- The number at the head of a text, and the rest. -/
def readNumber? (text : Text) : Option (Nat × Text) :=
  let run := text.takeWhile Char.isDigit
  if run = [] then none
  else some (Numeral.saturated numberLimit run, text.dropWhile Char.isDigit)

namespace Count

/-- The count at the head of a text, and the rest. -/
def read? : Text → Option (Count × Text)
  | '*' :: rest =>
    match readNumber? rest with
    | some (n, '$' :: behind) => some (.position n, behind)
    | _ => some (.next, rest)
  | text => (readNumber? text).map fun found => (.literal found.1, found.2)

end Count

namespace Directive

/-- Whether a character tells the size of an argument, which has no effect. -/
def isLength (c : Char) : Bool :=
  c == 'h' || c == 'l' || c == 'L' || c == 'q' || c == 'j' || c == 'z' || c == 't'

/-- The position of the value, if one is given, and the rest. -/
def readPosition (text : Text) : Option Nat × Text :=
  match readNumber? text with
  | some (n, '$' :: rest) => (some n, rest)
  | _ => (none, text)

/-- The width, if one is given, and the rest. -/
def readWidth (text : Text) : Option Count × Text :=
  match Count.read? text with
  | some (width, rest) => (some width, rest)
  | none => (none, text)

/-- The precision, if a point announces one, and the rest. -/
def readPrecision? : Text → Option (Option Count × Text)
  | '.' :: rest => (Count.read? rest).map fun found => (some found.1, found.2)
  | text => some (none, text)

/-- The conversion behind any length letters, and the rest. -/
def readConversion? (text : Text) : Option (Conversion × Text) :=
  match text.dropWhile isLength with
  | letter :: rest => (Conversion.ofLetter? letter).map fun conversion => (conversion, rest)
  | [] => none

/-- The directive at the head of a text that begins behind a percent sign, and the rest. -/
def read? (text : Text) : Option (Directive × Text) :=
  let position := readPosition text
  let flags := position.2.takeWhile Flags.isFlag
  let width := readWidth (position.2.dropWhile Flags.isFlag)
  (readPrecision? width.2).bind fun precision =>
    (readConversion? precision.2).map fun conversion =>
      ({ position := position.1
         flags := Flags.ofText flags
         width := width.1
         precision := precision.1
         conversion := conversion.1 }, conversion.2)

end Directive

namespace Template

/-- Puts a character in front of segments, into the literal that they begin with if they do. -/
def consLiteral (c : Char) : List Segment → List Segment
  | .literal text :: more => .literal (c :: text) :: more
  | segments => .literal [c] :: segments

/-- The segments of a text whose first `skip` characters belong to a segment before. -/
def scan : Nat → Text → List Segment
  | _, [] => []
  | skip + 1, _ :: rest => scan skip rest
  | 0, '%' :: '%' :: rest => .percent :: scan 1 ('%' :: rest)
  | 0, '%' :: rest =>
    match Directive.read? rest with
    | some (d, behind) =>
      let body := rest.length - behind.length
      .directive d ('%' :: rest.take body) :: scan body rest
    | none => consLiteral '%' (scan 0 rest)
  | 0, c :: rest => consLiteral c (scan 0 rest)

/-- The segments of a template. -/
def parse (template : Text) : List Segment := scan 0 template

end Template

end CellMachine
