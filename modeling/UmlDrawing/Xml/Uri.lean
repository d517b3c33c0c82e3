import UmlDrawing.Text.Basic

/-! References to resources: which texts are one, and what little of them matters. A reference is
absolute, with a scheme in front, or relative; in a relative one the first step of the path has no
colon, since that would end a scheme. -/
namespace UmlDrawing.Xml

structure Uri where
  /-- whether it starts with a scheme -/
  isAbsolute : Bool
  /-- whether it ends with a fragment, possibly an empty one -/
  hasFragment : Bool
  deriving DecidableEq, Repr

namespace Uri

def isHexDigit (c : Char) : Bool :=
  c.isDigit || ('a' ≤ c && c ≤ 'f') || ('A' ≤ c && c ≤ 'F')

def isHostChar (c : Char) : Bool := c.isAlphanum || "-._~!$&'()*+,;=".toList.elem c

def isStepChar (c : Char) : Bool := isHostChar c || c == ':' || c == '@'

def isPathChar (c : Char) : Bool := isStepChar c || c == '/'

/-- What follows the longest stretch of characters of a kind and of bytes in hexadecimal. -/
def skip (p : Char → Bool) : Text → Text
  | '%' :: a :: b :: r => if isHexDigit a && isHexDigit b then skip p r else '%' :: a :: b :: r
  | c :: r => if p c then skip p r else c :: r
  | [] => []

/-- What follows the name of a user, which ends with its mark, if there is one. -/
def afterUser (t : Text) : Text :=
  match skip (fun c => isHostChar c || c == ':') t with
  | '@' :: r => r
  | _ => t

/-- What follows a host: a name, or an address in brackets, in which any character may stand. -/
def afterHost? : Text → Option Text
  | '[' :: r => (Text.cut? ']' r).map (·.2)
  | t => some (skip isHostChar t)

def maxHostNumber : Nat := 2147483647

/-- What follows the number behind a host, if there is one. Its mark may not stand alone. -/
def afterHostNumber? : Text → Option Text
  | ':' :: r =>
    let digits := r.takeWhile Char.isDigit
    let number := digits.foldl (fun n c => min (10 * n + (c.toNat - 48)) (maxHostNumber + 1)) 0
    if digits.isEmpty || maxHostNumber < number then none else some (r.dropWhile Char.isDigit)
  | t => some t

/-- What follows a user, a host with its number, and the path behind them. -/
def afterAuthority? (t : Text) : Option Text := do
  let r ← afterHost? (afterUser t)
  let r ← afterHostNumber? r
  pure (if r.head? = some '/' then skip isPathChar r else r)

def afterPath? : Text → Option Text
  | '/' :: '/' :: r => afterAuthority? r
  | t => some (skip isPathChar t)

def afterRelativePath? : Text → Option Text
  | '/' :: '/' :: r => afterAuthority? r
  | '/' :: r => some (skip isPathChar r)
  | t =>
    let r := skip (fun c => isStepChar c && c != ':') t
    some (if r.head? = some '/' then skip isPathChar r else r)

def afterQuery : Text → Text
  | '?' :: r => skip (fun c => isPathChar c || c == '?') r
  | t => t

/-- Whether the rest of a reference is a fragment or nothing. -/
def fragment? : Text → Option Bool
  | [] => some false
  | '#' :: r =>
    if (skip (fun c => isPathChar c || c == '?' || c == '[' || c == ']') r).isEmpty then some true
    else none
  | _ => none

def afterScheme? : Text → Option Text
  | c :: r =>
    if c.isAlpha then
      Text.dropStart? [':']
        (r.dropWhile fun d => d.isAlphanum || d == '+' || d == '-' || d == '.')
    else none
  | [] => none

def absolute? (t : Text) : Option Uri := do
  let r ← afterScheme? t
  let r ← afterPath? r
  let fragment ← fragment? (afterQuery r)
  pure ⟨true, fragment⟩

def relative? (t : Text) : Option Uri := do
  let r ← afterRelativePath? t
  let fragment ← fragment? (afterQuery r)
  pure ⟨false, fragment⟩

/-- A text as a reference to a resource, if it is one. -/
def ofText? (t : Text) : Option Uri := (absolute? t).or (relative? t)

example : ofText? "urn:x".toList = some ⟨true, false⟩ := by rfl

example : ofText? "a/b?c#d".toList = some ⟨false, true⟩ := by rfl

example : ofText? "http://h:/".toList = none := by rfl

example : ofText? "a b".toList = none := by rfl

end Uri

end UmlDrawing.Xml
