import UmlDrawing.Xml.Tree

/-! The writing of markup: without any blanks between elements, with the attributes in the order of
their names and without those that have no value. -/
namespace UmlDrawing.Xml

def escapeText : Char → Text
  | '&' => "&amp;".toList
  | '<' => "&lt;".toList
  | '>' => "&gt;".toList
  | c => [c]

def escapeValue : Char → Text
  | '"' => "&quot;".toList
  | '\n' => "&#10;".toList
  | '\r' => "&#13;".toList
  | '\t' => "&#09;".toList
  | c => escapeText c

def printAttribute (a : Attribute) : Text :=
  ' ' :: a.1 ++ "=\"".toList ++ a.2.flatMap escapeValue ++ ['"']

def printAttributes (attributes : List Attribute) : Text :=
  ((attributes.filter fun a => !a.2.isEmpty).mergeSort fun a b => Text.le a.1 b.1).flatMap
    printAttribute

mutual

def print : Node → Text
  | .element name attributes [] => '<' :: name ++ printAttributes attributes ++ " />".toList
  | .element name attributes (child :: rest) =>
    '<' :: name ++ printAttributes attributes ++ ['>'] ++ (print child ++ printAll rest)
      ++ "</".toList ++ name ++ ['>']
  | .text content => content.flatMap escapeText
  | .comment content => "<!--".toList ++ content ++ "-->".toList
  | .instruction target content => "<?".toList ++ target ++ ' ' :: content ++ "?>".toList
  | .reference name => '&' :: name ++ [';']

def printAll : List Node → Text
  | [] => []
  | n :: ns => print n ++ printAll ns

end

example : print (.element ['a'] [("y".toList, "<".toList), ("x".toList, [])] [.text "1&2".toList]) =
    "<a y=\"&lt;\">1&amp;2</a>".toList := by decide +kernel

end UmlDrawing.Xml
