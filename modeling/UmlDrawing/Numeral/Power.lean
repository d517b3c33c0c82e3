/-! The powers that numbers are measured with: those of two for doubles, those of ten for
decimals. -/
namespace UmlDrawing.Numeral

abbrev twoTo (k : Nat) : Nat := Nat.pow 2 k

abbrev tenTo (k : Nat) : Nat := Nat.pow 10 k

end UmlDrawing.Numeral
