import UmlDrawing.Text.Quoted

/-! Why an operation of the library can fail. A fault is a cause, not a wording; the wordings that
are shown to a user are made by `Fault.message`. -/
namespace UmlDrawing

/-- The causes of failure. -/
inductive Fault where
  /-- an exact integer lies beyond the largest real -/
  | beyondReals
  | wholeOfInfinity
  | wholeOfNaN
  | infiniteAngle
  | divisionByZero
  /-- a decimal numeral has more digits than are read -/
  | tooManyDigits
  | malformedInteger
  | malformedReal
  /-- a list cannot be cut into pieces of a negative size -/
  | negativePieceSize
  | unknownColor (name : Text)
  /-- a colour list holds neither three nor four components -/
  | componentCount (source : Text)
  | hexLength
  | componentRange
  | negativeSize (x y w h : Int)
  /-- a font was asked for at a size that is not positive -/
  | fontSize
  /-- there is no renderer for a kind, nor one to fall back to -/
  | noRenderer
  | unknownFormat (name : Text)
  | attributeValue (value : Text)
  /-- a whole document was to be moved like a part of it -/
  | documentMoved
  /-- a vector was given where a number is due, or the reverse -/
  | operandKind
  | operandLength
  | malformedDocument
  /-- an element has a name that cannot be looked up -/
  | unreadableName
  | missingFile
  | fileNameLength
  /-- the name of a file holds the character that ends names -/
  | fileNameCharacter
  | isDirectory
  | notDirectory
  /-- a pixel coordinate, an image size or a part of a colour has too many bits -/
  | pixelOverflow
  | imageTooLarge
  /-- a step names a surface that was never made -/
  | noSuchSurface
  | cyclicDrawing
  /-- a walk along a line made no progress -/
  | noProgress
  deriving DecidableEq, Repr

namespace Fault

def formatNames : Text := "png, raster, record, svg".toList

/-- The wording of a fault, where it has one. -/
def message : Fault → Option Text
  | unknownColor name => some ("Bad CSS color: ".toList ++ Text.quoted name)
  | componentCount source => some ("Expected 3 or 4 values: ".toList ++ source)
  | hexLength =>
    some "Invalid length of hex string, expected 3, 4, 6 or 8 characters".toList
  | negativeSize x y w h =>
    some ("Bounds must not have a negative size: Bounds(x=".toList ++ Text.ofInt x
      ++ ", y=".toList ++ Text.ofInt y ++ ", w=".toList ++ Text.ofInt w
      ++ ", h=".toList ++ Text.ofInt h ++ ")".toList)
  | unknownFormat name =>
    some ("Unknown output format ".toList ++ Text.quoted name ++ ", expected one of: ".toList
      ++ formatNames)
  | _ => none

end Fault

def orFault {α : Type} (fault : Fault) : Option α → Except Fault α
  | some a => .ok a
  | none => .error fault

end UmlDrawing
