import UmlDrawing.Text.Encoding

/-! Encodings in which every byte is a character. The first half of the bytes are the basic
characters; the other half belongs to the letters of some languages. -/
namespace UmlDrawing.Text

/-- An encoding in which every byte is a character. -/
structure CodePage where
  /-- the names of the encoding, in upper case -/
  names : List String
  /-- the first byte that is not the number of its character -/
  first : Nat
  /-- the characters of the bytes from there on, with a mark of replacement for those without one -/
  rows : List String
  deriving Repr, Inhabited

namespace CodePage

def char? (p : CodePage) (b : UInt8) : Option Char :=
  if b.toNat < p.first then some (Char.ofNat b.toNat)
  else ((p.rows.flatMap String.toList)[b.toNat - p.first]?).filter (· != '\ufffd')

/-- The text of some bytes, if all of them have a character. -/
def decode? (p : CodePage) (bytes : Bytes) : Option Text := bytes.mapM p.char?

/-- The letters of western Europe, whose bytes are their numbers. -/
def latin1 : CodePage where
  names := ["ISO-8859-1", "ISO-IR-100", "ISO8859-1", "ISO_8859-1", "LATIN1", "L1", "CP819",
    "IBM819", "CSISOLATIN1", "ISO-LATIN-1"]
  first := 0x100
  rows := []

/-- The basic characters alone. -/
def basic : CodePage where
  names := ["ASCII", "US-ASCII", "US", "ISO646-US", "ISO-IR-6", "ANSI_X3.4-1968", "ANSI_X3.4-1986",
    "CP367", "IBM367", "CSASCII"]
  first := 0x80
  rows := []

/-- The letters of central Europe. -/
def latin2 : CodePage where
  names := ["ISO-8859-2", "ISO-IR-101", "ISO8859-2", "ISO_8859-2", "LATIN2", "L2", "CSISOLATIN2",
    "ISO-LATIN-2"]
  first := 0xA0
  rows :=
    ["\u00a0Ą˘Ł¤ĽŚ§¨ŠŞŤŹ\u00adŽŻ°ą˛ł´ľśˇ¸šşťź˝žż",
     "ŔÁÂĂÄĹĆÇČÉĘËĚÍÎĎĐŃŇÓÔŐÖ×ŘŮÚŰÜÝŢß",
     "ŕáâăäĺćçčéęëěíîďđńňóôőö÷řůúűüýţ˙"]

/-- The letters of southern Europe. -/
def latin3 : CodePage where
  names := ["ISO-8859-3", "ISO-IR-109", "ISO8859-3", "ISO_8859-3", "LATIN3", "L3", "CSISOLATIN3"]
  first := 0xA0
  rows :=
    ["\u00a0Ħ˘£¤\ufffdĤ§¨İŞĞĴ\u00ad\ufffdŻ°ħ²³´µĥ·¸ışğĵ½\ufffdż",
     "ÀÁÂ\ufffdÄĊĈÇÈÉÊËÌÍÎÏ\ufffdÑÒÓÔĠÖ×ĜÙÚÛÜŬŜß",
     "àáâ\ufffdäċĉçèéêëìíîï\ufffdñòóôġö÷ĝùúûüŭŝ˙"]

/-- The letters of northern Europe. -/
def latin4 : CodePage where
  names := ["ISO-8859-4", "ISO-IR-110", "ISO8859-4", "ISO_8859-4", "LATIN4", "L4", "CSISOLATIN4"]
  first := 0xA0
  rows :=
    ["\u00a0ĄĸŖ¤ĨĻ§¨ŠĒĢŦ\u00adŽ¯°ą˛ŗ´ĩļˇ¸šēģŧŊžŋ",
     "ĀÁÂÃÄÅÆĮČÉĘËĖÍÎĪĐŅŌĶÔÕÖ×ØŲÚÛÜŨŪß",
     "āáâãäåæįčéęëėíîīđņōķôõö÷øųúûüũū˙"]

def latinCyrillic : CodePage where
  names := ["ISO-8859-5", "ISO-IR-144", "ISO8859-5", "ISO_8859-5", "CYRILLIC",
    "CSISOLATINCYRILLIC"]
  first := 0xA0
  rows :=
    ["\u00a0ЁЂЃЄЅІЇЈЉЊЋЌ\u00adЎЏАБВГДЕЖЗИЙКЛМНОП",
     "РСТУФХЦЧШЩЪЫЬЭЮЯабвгдежзийклмноп",
     "рстуфхцчшщъыьэюя№ёђѓєѕіїјљњћќ§ўџ"]

def latinArabic : CodePage where
  names := ["ISO-8859-6", "ISO-IR-127", "ISO8859-6", "ISO_8859-6", "ARABIC", "ASMO-708",
    "ECMA-114", "CSISOLATINARABIC"]
  first := 0xA0
  rows :=
    ["\u00a0\ufffd\ufffd\ufffd¤\ufffd\ufffd\ufffd\ufffd\ufffd\ufffd\ufffd،\u00ad\ufffd\ufffd",
     "\ufffd\ufffd\ufffd\ufffd\ufffd\ufffd\ufffd\ufffd",
     "\ufffd\ufffd\ufffd\u061b\ufffd\ufffd\ufffd\u061f",
     "\ufffd\u0621\u0622\u0623\u0624\u0625\u0626\u0627",
     "\u0628\u0629\u062a\u062b\u062c\u062d\u062e\u062f",
     "\u0630\u0631\u0632\u0633\u0634\u0635\u0636\u0637",
     "\u0638\u0639\u063a\ufffd\ufffd\ufffd\ufffd\ufffd",
     "\u0640\u0641\u0642\u0643\u0644\u0645\u0646\u0647",
     "\u0648\u0649\u064a\u064b\u064c\u064d\u064e\u064f",
     "\u0650\u0651\u0652\ufffd\ufffd\ufffd\ufffd\ufffd",
     "\ufffd\ufffd\ufffd\ufffd\ufffd\ufffd\ufffd\ufffd"]

def latinGreek : CodePage where
  names := ["ISO-8859-7", "ISO-IR-126", "ISO8859-7", "ISO_8859-7", "GREEK", "GREEK8", "ECMA-118",
    "ELOT_928", "CSISOLATINGREEK"]
  first := 0xA0
  rows :=
    ["\u00a0‘’£€₯¦§¨©ͺ«¬\u00ad\ufffd―°±²³΄΅Ά·ΈΉΊ»Ό½ΎΏ",
     "ΐΑΒΓΔΕΖΗΘΙΚΛΜΝΞΟΠΡ\ufffdΣΤΥΦΧΨΩΪΫάέήί",
     "ΰαβγδεζηθικλμνξοπρςστυφχψωϊϋόύώ\ufffd"]

def latinHebrew : CodePage where
  names := ["ISO-8859-8", "ISO-IR-138", "ISO8859-8", "ISO_8859-8", "HEBREW", "CSISOLATINHEBREW"]
  first := 0xA0
  rows :=
    ["\u00a0\ufffd¢£¤¥¦§¨©×«¬\u00ad®¯°±²³´µ¶·¸¹÷»¼½¾\ufffd",
     "\ufffd\ufffd\ufffd\ufffd\ufffd\ufffd\ufffd\ufffd",
     "\ufffd\ufffd\ufffd\ufffd\ufffd\ufffd\ufffd\ufffd",
     "\ufffd\ufffd\ufffd\ufffd\ufffd\ufffd\ufffd\ufffd",
     "\ufffd\ufffd\ufffd\ufffd\ufffd\ufffd\ufffd‗",
     "\u05d0\u05d1\u05d2\u05d3\u05d4\u05d5\u05d6\u05d7",
     "\u05d8\u05d9\u05da\u05db\u05dc\u05dd\u05de\u05df",
     "\u05e0\u05e1\u05e2\u05e3\u05e4\u05e5\u05e6\u05e7",
     "\u05e8\u05e9\u05ea\ufffd\ufffd\u200e\u200f\ufffd"]

/-- The letters of western Europe with those of Turkish. -/
def latin5 : CodePage where
  names := ["ISO-8859-9", "ISO-IR-148", "ISO8859-9", "ISO_8859-9", "LATIN5", "L5", "CSISOLATIN5"]
  first := 0xA0
  rows :=
    ["\u00a0¡¢£¤¥¦§¨©ª«¬\u00ad®¯°±²³´µ¶·¸¹º»¼½¾¿",
     "ÀÁÂÃÄÅÆÇÈÉÊËÌÍÎÏĞÑÒÓÔÕÖ×ØÙÚÛÜİŞß",
     "àáâãäåæçèéêëìíîïğñòóôõö÷øùúûüışÿ"]

/-- The letters of the Nordic languages. -/
def latin6 : CodePage where
  names := ["ISO-8859-10", "ISO-IR-157", "ISO8859-10", "ISO_8859-10", "LATIN6", "L6",
    "CSISOLATIN6"]
  first := 0xA0
  rows :=
    ["\u00a0ĄĒĢĪĨĶ§ĻĐŠŦŽ\u00adŪŊ°ąēģīĩķ·ļđšŧž―ūŋ",
     "ĀÁÂÃÄÅÆĮČÉĘËĖÍÎÏÐŅŌÓÔÕÖŨØŲÚÛÜÝÞß",
     "āáâãäåæįčéęëėíîïðņōóôõöũøųúûüýþĸ"]

def latinThai : CodePage where
  names := ["ISO-8859-11", "ISO8859-11", "ISO_8859-11"]
  first := 0xA0
  rows :=
    ["\u00a0\u0e01\u0e02\u0e03\u0e04\u0e05\u0e06\u0e07",
     "\u0e08\u0e09\u0e0a\u0e0b\u0e0c\u0e0d\u0e0e\u0e0f",
     "\u0e10\u0e11\u0e12\u0e13\u0e14\u0e15\u0e16\u0e17",
     "\u0e18\u0e19\u0e1a\u0e1b\u0e1c\u0e1d\u0e1e\u0e1f",
     "\u0e20\u0e21\u0e22\u0e23\u0e24\u0e25\u0e26\u0e27",
     "\u0e28\u0e29\u0e2a\u0e2b\u0e2c\u0e2d\u0e2e\u0e2f",
     "\u0e30\u0e31\u0e32\u0e33\u0e34\u0e35\u0e36\u0e37",
     "\u0e38\u0e39\u0e3a\ufffd\ufffd\ufffd\ufffd\u0e3f",
     "\u0e40\u0e41\u0e42\u0e43\u0e44\u0e45\u0e46\u0e47",
     "\u0e48\u0e49\u0e4a\u0e4b\u0e4c\u0e4d\u0e4e\u0e4f",
     "\u0e50\u0e51\u0e52\u0e53\u0e54\u0e55\u0e56\u0e57",
     "\u0e58\u0e59\u0e5a\u0e5b\ufffd\ufffd\ufffd\ufffd"]

/-- The letters of the Baltic languages. -/
def latin7 : CodePage where
  names := ["ISO-8859-13", "ISO-IR-179", "ISO8859-13", "ISO_8859-13", "LATIN7", "L7"]
  first := 0xA0
  rows :=
    ["\u00a0”¢£¤„¦§Ø©Ŗ«¬\u00ad®Æ°±²³“µ¶·ø¹ŗ»¼½¾æ",
     "ĄĮĀĆÄÅĘĒČÉŹĖĢĶĪĻŠŃŅÓŌÕÖ×ŲŁŚŪÜŻŽß",
     "ąįāćäåęēčéźėģķīļšńņóōõö÷ųłśūüżž’"]

/-- The letters of the Celtic languages. -/
def latin8 : CodePage where
  names := ["ISO-8859-14", "ISO-IR-199", "ISO8859-14", "ISO_8859-14", "LATIN8", "L8",
    "ISO-CELTIC"]
  first := 0xA0
  rows :=
    ["\u00a0Ḃḃ£ĊċḊ§Ẁ©ẂḋỲ\u00ad®ŸḞḟĠġṀṁ¶ṖẁṗẃṠỳẄẅṡ",
     "ÀÁÂÃÄÅÆÇÈÉÊËÌÍÎÏŴÑÒÓÔÕÖṪØÙÚÛÜÝŶß",
     "àáâãäåæçèéêëìíîïŵñòóôõöṫøùúûüýŷÿ"]

/-- The letters of western Europe with the sign of the euro. -/
def latin9 : CodePage where
  names := ["ISO-8859-15", "ISO-IR-203", "ISO8859-15", "ISO_8859-15", "LATIN-9"]
  first := 0xA0
  rows :=
    ["\u00a0¡¢£€¥Š§š©ª«¬\u00ad®¯°±²³Žµ¶·ž¹º»ŒœŸ¿",
     "ÀÁÂÃÄÅÆÇÈÉÊËÌÍÎÏÐÑÒÓÔÕÖ×ØÙÚÛÜÝÞß",
     "àáâãäåæçèéêëìíîïðñòóôõö÷øùúûüýþÿ"]

/-- The letters of south-eastern Europe. -/
def latin10 : CodePage where
  names := ["ISO-8859-16", "ISO-IR-226", "ISO8859-16", "ISO_8859-16", "LATIN10", "L10"]
  first := 0xA0
  rows :=
    ["\u00a0ĄąŁ€„Š§š©Ș«Ź\u00adźŻ°±ČłŽ”¶·žčș»ŒœŸż",
     "ÀÁÂĂÄĆÆÇÈÉÊËÌÍÎÏĐŃÒÓÔŐÖŚŰÙÚÛÜĘȚß",
     "àáâăäćæçèéêëìíîïđńòóôőöśűùúûüęțÿ"]

def windowsCentral : CodePage where
  names := ["WINDOWS-1250", "CP1250", "MS-EE"]
  first := 0x80
  rows :=
    ["€\ufffd‚\ufffd„…†‡\ufffd‰Š‹ŚŤŽŹ\ufffd‘’“”•–—\ufffd™š›śťžź",
     "\u00a0ˇ˘Ł¤Ą¦§¨©Ş«¬\u00ad®Ż°±˛ł´µ¶·¸ąş»Ľ˝ľż",
     "ŔÁÂĂÄĹĆÇČÉĘËĚÍÎĎĐŃŇÓÔŐÖ×ŘŮÚŰÜÝŢß",
     "ŕáâăäĺćçčéęëěíîďđńňóôőö÷řůúűüýţ˙"]

def windowsCyrillic : CodePage where
  names := ["WINDOWS-1251", "CP1251", "MS-CYRL"]
  first := 0x80
  rows :=
    ["ЂЃ‚ѓ„…†‡€‰Љ‹ЊЌЋЏђ‘’“”•–—\ufffd™љ›њќћџ",
     "\u00a0ЎўЈ¤Ґ¦§Ё©Є«¬\u00ad®Ї°±Ііґµ¶·ё№є»јЅѕї",
     "АБВГДЕЖЗИЙКЛМНОПРСТУФХЦЧШЩЪЫЬЭЮЯ",
     "абвгдежзийклмнопрстуфхцчшщъыьэюя"]

def windowsWestern : CodePage where
  names := ["WINDOWS-1252", "CP1252", "MS-ANSI"]
  first := 0x80
  rows :=
    ["€\ufffd‚ƒ„…†‡ˆ‰Š‹Œ\ufffdŽ\ufffd\ufffd‘’“”•–—˜™š›œ\ufffdžŸ",
     "\u00a0¡¢£¤¥¦§¨©ª«¬\u00ad®¯°±²³´µ¶·¸¹º»¼½¾¿",
     "ÀÁÂÃÄÅÆÇÈÉÊËÌÍÎÏÐÑÒÓÔÕÖ×ØÙÚÛÜÝÞß",
     "àáâãäåæçèéêëìíîïðñòóôõö÷øùúûüýþÿ"]

def windowsGreek : CodePage where
  names := ["WINDOWS-1253", "CP1253", "MS-GREEK"]
  first := 0x80
  rows :=
    ["€\ufffd‚ƒ„…†‡\ufffd‰\ufffd‹\ufffd\ufffd\ufffd\ufffd",
     "\ufffd‘’“”•–—\ufffd™\ufffd›\ufffd\ufffd\ufffd\ufffd\u00a0΅Ά£¤¥¦§¨©\ufffd«¬\u00ad®―",
     "°±²³΄µ¶·ΈΉΊ»Ό½ΎΏΐΑΒΓΔΕΖΗΘΙΚΛΜΝΞΟ",
     "ΠΡ\ufffdΣΤΥΦΧΨΩΪΫάέήίΰαβγδεζηθικλμνξο",
     "πρςστυφχψωϊϋόύώ\ufffd"]

def windowsTurkish : CodePage where
  names := ["WINDOWS-1254", "CP1254", "MS-TURK"]
  first := 0x80
  rows :=
    ["€\ufffd‚ƒ„…†‡ˆ‰Š‹Œ\ufffd\ufffd\ufffd\ufffd‘’“”•–—˜™š›œ\ufffd\ufffdŸ",
     "\u00a0¡¢£¤¥¦§¨©ª«¬\u00ad®¯°±²³´µ¶·¸¹º»¼½¾¿",
     "ÀÁÂÃÄÅÆÇÈÉÊËÌÍÎÏĞÑÒÓÔÕÖ×ØÙÚÛÜİŞß",
     "àáâãäåæçèéêëìíîïğñòóôõö÷øùúûüışÿ"]

def windowsHebrew : CodePage where
  names := ["WINDOWS-1255", "CP1255", "MS-HEBR"]
  first := 0x80
  rows :=
    ["€\ufffd‚ƒ„…†‡ˆ‰\ufffd‹\ufffd\ufffd\ufffd\ufffd",
     "\ufffd‘’“”•–—˜™\ufffd›\ufffd\ufffd\ufffd\ufffd\u00a0¡¢£₪¥¦§¨©×«¬\u00ad®¯",
     "°±²³´µ¶·¸¹÷»¼½¾¿",
     "\u05b0\u05b1\u05b2\u05b3\u05b4\u05b5\u05b6\u05b7",
     "\u05b8\u05b9\ufffd\u05bb\u05bc\u05bd\u05be\u05bf",
     "\u05c0\u05c1\u05c2\u05c3\u05f0\u05f1\u05f2\u05f3",
     "\u05f4\ufffd\ufffd\ufffd\ufffd\ufffd\ufffd\ufffd",
     "\u05d0\u05d1\u05d2\u05d3\u05d4\u05d5\u05d6\u05d7",
     "\u05d8\u05d9\u05da\u05db\u05dc\u05dd\u05de\u05df",
     "\u05e0\u05e1\u05e2\u05e3\u05e4\u05e5\u05e6\u05e7",
     "\u05e8\u05e9\u05ea\ufffd\ufffd\u200e\u200f\ufffd"]

def windowsArabic : CodePage where
  names := ["WINDOWS-1256", "CP1256", "MS-ARAB"]
  first := 0x80
  rows :=
    ["€\u067e‚ƒ„…†‡ˆ‰\u0679‹Œ\u0686\u0698\u0688",
     "\u06af‘’“”•–—\u06a9™\u0691›œ\u200c\u200d\u06ba\u00a0،¢£¤¥¦§¨©\u06be«¬\u00ad®¯",
     "°±²³´µ¶·¸¹\u061b»¼½¾\u061f",
     "\u06c1\u0621\u0622\u0623\u0624\u0625\u0626\u0627",
     "\u0628\u0629\u062a\u062b\u062c\u062d\u062e\u062f",
     "\u0630\u0631\u0632\u0633\u0634\u0635\u0636×",
     "\u0637\u0638\u0639\u063a\u0640\u0641\u0642\u0643",
     "à\u0644â\u0645\u0646\u0647\u0648çèéêë\u0649\u064aîï",
     "\u064b\u064c\u064d\u064eô\u064f\u0650÷\u0651ù\u0652ûü\u200e\u200f\u06d2"]

def windowsBaltic : CodePage where
  names := ["WINDOWS-1257", "CP1257", "WINBALTRIM"]
  first := 0x80
  rows :=
    ["€\ufffd‚\ufffd„…†‡\ufffd‰\ufffd‹\ufffd¨ˇ¸\ufffd‘’“”•–—\ufffd™\ufffd›\ufffd¯˛\ufffd",
     "\u00a0\ufffd¢£¤\ufffd¦§Ø©Ŗ«¬\u00ad®Æ°±²³´µ¶·ø¹ŗ»¼½¾æ",
     "ĄĮĀĆÄÅĘĒČÉŹĖĢĶĪĻŠŃŅÓŌÕÖ×ŲŁŚŪÜŻŽß",
     "ąįāćäåęēčéźėģķīļšńņóōõö÷ųłśūüżž˙"]

def windowsVietnamese : CodePage where
  names := ["WINDOWS-1258", "CP1258"]
  first := 0x80
  rows :=
    ["€\ufffd‚ƒ„…†‡ˆ‰\ufffd‹Œ\ufffd\ufffd\ufffd\ufffd‘’“”•–—˜™\ufffd›œ\ufffd\ufffdŸ",
     "\u00a0¡¢£¤¥¦§¨©ª«¬\u00ad®¯°±²³´µ¶·¸¹º»¼½¾¿",
     "ÀÁÂĂÄÅÆÇÈÉÊË\u0300ÍÎÏĐÑ\u0309ÓÔƠÖ×ØÙÚÛÜƯ\u0303ß",
     "àáâăäåæçèéêë\u0301íîïđñ\u0323óôơö÷øùúûüư₫ÿ"]

def windowsThai : CodePage where
  names := ["WINDOWS-874", "CP874"]
  first := 0x80
  rows :=
    ["€\ufffd\ufffd\ufffd\ufffd…\ufffd\ufffd\ufffd\ufffd\ufffd\ufffd\ufffd\ufffd\ufffd\ufffd",
     "\ufffd‘’“”•–—\ufffd\ufffd\ufffd\ufffd\ufffd\ufffd\ufffd\ufffd",
     "\u00a0\u0e01\u0e02\u0e03\u0e04\u0e05\u0e06\u0e07",
     "\u0e08\u0e09\u0e0a\u0e0b\u0e0c\u0e0d\u0e0e\u0e0f",
     "\u0e10\u0e11\u0e12\u0e13\u0e14\u0e15\u0e16\u0e17",
     "\u0e18\u0e19\u0e1a\u0e1b\u0e1c\u0e1d\u0e1e\u0e1f",
     "\u0e20\u0e21\u0e22\u0e23\u0e24\u0e25\u0e26\u0e27",
     "\u0e28\u0e29\u0e2a\u0e2b\u0e2c\u0e2d\u0e2e\u0e2f",
     "\u0e30\u0e31\u0e32\u0e33\u0e34\u0e35\u0e36\u0e37",
     "\u0e38\u0e39\u0e3a\ufffd\ufffd\ufffd\ufffd\u0e3f",
     "\u0e40\u0e41\u0e42\u0e43\u0e44\u0e45\u0e46\u0e47",
     "\u0e48\u0e49\u0e4a\u0e4b\u0e4c\u0e4d\u0e4e\u0e4f",
     "\u0e50\u0e51\u0e52\u0e53\u0e54\u0e55\u0e56\u0e57",
     "\u0e58\u0e59\u0e5a\u0e5b\ufffd\ufffd\ufffd\ufffd"]

/-- Thai letters without controls. -/
def thai : CodePage where
  names := ["TIS-620", "TIS620", "TIS620-0", "ISO-IR-166"]
  first := 0x80
  rows :=
    ["\ufffd\ufffd\ufffd\ufffd\ufffd\ufffd\ufffd\ufffd",
     "\ufffd\ufffd\ufffd\ufffd\ufffd\ufffd\ufffd\ufffd",
     "\ufffd\ufffd\ufffd\ufffd\ufffd\ufffd\ufffd\ufffd",
     "\ufffd\ufffd\ufffd\ufffd\ufffd\ufffd\ufffd\ufffd",
     "\ufffd\u0e01\u0e02\u0e03\u0e04\u0e05\u0e06\u0e07",
     "\u0e08\u0e09\u0e0a\u0e0b\u0e0c\u0e0d\u0e0e\u0e0f",
     "\u0e10\u0e11\u0e12\u0e13\u0e14\u0e15\u0e16\u0e17",
     "\u0e18\u0e19\u0e1a\u0e1b\u0e1c\u0e1d\u0e1e\u0e1f",
     "\u0e20\u0e21\u0e22\u0e23\u0e24\u0e25\u0e26\u0e27",
     "\u0e28\u0e29\u0e2a\u0e2b\u0e2c\u0e2d\u0e2e\u0e2f",
     "\u0e30\u0e31\u0e32\u0e33\u0e34\u0e35\u0e36\u0e37",
     "\u0e38\u0e39\u0e3a\ufffd\ufffd\ufffd\ufffd\u0e3f",
     "\u0e40\u0e41\u0e42\u0e43\u0e44\u0e45\u0e46\u0e47",
     "\u0e48\u0e49\u0e4a\u0e4b\u0e4c\u0e4d\u0e4e\u0e4f",
     "\u0e50\u0e51\u0e52\u0e53\u0e54\u0e55\u0e56\u0e57",
     "\u0e58\u0e59\u0e5a\u0e5b\ufffd\ufffd\ufffd\ufffd"]

/-- Cyrillic letters in the order of the basic alphabet. -/
def koiRussian : CodePage where
  names := ["KOI8-R", "CSKOI8R"]
  first := 0x80
  rows :=
    ["─│┌┐└┘├┤┬┴┼▀▄█▌▐░▒▓⌠■∙√≈≤≥\u00a0⌡°²·÷",
     "═║╒ё╓╔╕╖╗╘╙╚╛╜╝╞╟╠╡Ё╢╣╤╥╦╧╨╩╪╫╬©",
     "юабцдефгхийклмнопярстужвьызшэщчъ",
     "ЮАБЦДЕФГХИЙКЛМНОПЯРСТУЖВЬЫЗШЭЩЧЪ"]

def koiUkrainian : CodePage where
  names := ["KOI8-U"]
  first := 0x80
  rows :=
    ["─│┌┐└┘├┤┬┴┼▀▄█▌▐░▒▓⌠■∙√≈≤≥\u00a0⌡°²·÷",
     "═║╒ёє╔ії╗╘╙╚╛ґ╝╞╟╠╡ЁЄ╣ІЇ╦╧╨╩╪Ґ╬©",
     "юабцдефгхийклмнопярстужвьызшэщчъ",
     "ЮАБЦДЕФГХИЙКЛМНОПЯРСТУЖВЬЫЗШЭЩЧЪ"]

def macRoman : CodePage where
  names := ["MACINTOSH", "MAC", "MACROMAN", "CSMACINTOSH"]
  first := 0x80
  rows :=
    ["ÄÅÇÉÑÖÜáàâäãåçéèêëíìîïñóòôöõúùûü",
     "†°¢£§•¶ß®©™´¨≠ÆØ∞±≤≥¥µ∂∑∏π∫ªºΩæø",
     "¿¡¬√ƒ≈∆«»…\u00a0ÀÃÕŒœ–—“”‘’÷◊ÿŸ⁄€‹›ﬁﬂ",
     "‡·‚„‰ÂÊÁËÈÍÎÏÌÓÔÒÚÛÙıˆ˜¯˘˙˚¸˝˛ˇ"]

def macCyrillic : CodePage where
  names := ["MACCYRILLIC"]
  first := 0x80
  rows :=
    ["АБВГДЕЖЗИЙКЛМНОПРСТУФХЦЧШЩЪЫЬЭЮЯ",
     "†°Ґ£§•¶І®©™Ђђ≠Ѓѓ∞±≤≥іµґЈЄєЇїЉљЊњ",
     "јЅ¬√ƒ≈∆«»…\u00a0ЋћЌќѕ–—“”‘’÷„ЎўЏџ№Ёёя",
     "абвгдежзийклмнопрстуфхцчшщъыьэю€"]

def dosWestern : CodePage where
  names := ["CP850", "IBM850", "CSPC850MULTILINGUAL"]
  first := 0x80
  rows :=
    ["ÇüéâäàåçêëèïîìÄÅÉæÆôöòûùÿÖÜø£Ø×ƒ",
     "áíóúñÑªº¿®¬½¼¡«»░▒▓│┤ÁÂÀ©╣║╗╝¢¥┐",
     "└┴┬├─┼ãÃ╚╔╩╦╠═╬¤ðÐÊËÈıÍÎÏ┘┌█▄¦Ì▀",
     "ÓßÔÒõÕµþÞÚÛÙýÝ¯´\u00ad±‗¾¶§÷¸°¨·¹³²■\u00a0"]

def dosHebrew : CodePage where
  names := ["CP862", "IBM862", "CSPC862LATINHEBREW"]
  first := 0x80
  rows :=
    ["\u05d0\u05d1\u05d2\u05d3\u05d4\u05d5\u05d6\u05d7",
     "\u05d8\u05d9\u05da\u05db\u05dc\u05dd\u05de\u05df",
     "\u05e0\u05e1\u05e2\u05e3\u05e4\u05e5\u05e6\u05e7\u05e8\u05e9\u05ea¢£¥₧ƒ",
     "áíóúñÑªº¿⌐¬½¼¡«»░▒▓│┤╡╢╖╕╣║╗╝╜╛┐",
     "└┴┬├─┼╞╟╚╔╩╦╠═╬╧╨╤╥╙╘╒╓╫╪┘┌█▄▌▐▀",
     "αßΓπΣσµτΦΘΩδ∞φε∩≡±≥≤⌠⌡÷≈°∙·√ⁿ²■\u00a0"]

def dosCyrillic : CodePage where
  names := ["CP866", "IBM866", "CSIBM866"]
  first := 0x80
  rows :=
    ["АБВГДЕЖЗИЙКЛМНОПРСТУФХЦЧШЩЪЫЬЭЮЯ",
     "абвгдежзийклмноп░▒▓│┤╡╢╖╕╣║╗╝╜╛┐",
     "└┴┬├─┼╞╟╚╔╩╦╠═╬╧╨╤╥╙╘╒╓╫╪┘┌█▄▌▐▀",
     "рстуфхцчшщъыьэюяЁёЄєЇїЎў°∙·√№¤■\u00a0"]

def all : List CodePage :=
  [latin1, basic, latin2, latin3, latin4, latinCyrillic, latinArabic, latinGreek, latinHebrew,
   latin5, latin6, latinThai, latin7, latin8, latin9, latin10, windowsCentral, windowsCyrillic,
   windowsWestern, windowsGreek, windowsTurkish, windowsHebrew, windowsArabic, windowsBaltic,
   windowsVietnamese, windowsThai, thai, koiRussian, koiUkrainian, macRoman, macCyrillic,
   dosWestern, dosHebrew, dosCyrillic]

/-- The encoding with a name, in letters of either case. -/
def ofName? (n : Text) : Option CodePage :=
  all.find? fun p => p.names.any fun m => n.map Char.toUpper = m.toList

example : windowsWestern.decode? [0xE9, 0x80] = some "é€".toList := by rfl

example : windowsWestern.char? 0x81 = none := by rfl

example : latin1.char? 0x85 = some '\u0085' := by rfl

end CodePage

/-- The decoding of bytes in the encodings that have no table, by name. Nothing is decoded in an
encoding that is not known. -/
abbrev Decoders := (name : Text) → (bytes : Bytes) → Option Text

namespace Decoders

def wideNames : List String :=
  ["EUC-JP", "EUCJP", "SHIFT_JIS", "SHIFT-JIS", "SJIS", "CP932", "GB2312", "EUC-CN", "GBK", "CP936",
    "GB18030", "BIG5", "BIG-5", "CP950", "EUC-TW", "EUC-KR", "EUCKR", "CP949"]

/-- The decoding of the basic characters alone, which encodings with characters of several bytes have
as well. -/
def basic : Decoders := fun name bytes =>
  if wideNames.any fun m => name.map Char.toUpper = m.toList then CodePage.basic.decode? bytes
  else none

end Decoders

end UmlDrawing.Text
