import SourceOutline.Text.Split

/-!
# Names of characters

Which texts are names of characters, so that a character can be written by its name. That is for
Unicode to say, and changes with its versions: to the grammar it is a parameter, the class
`CharacterNames`, and nothing that is proved about a text depends on which names there are.

The program takes the names below (`isKnownName`). Upper and lower case make no difference.
Ideographs and the syllables of Hangul are named by rules; the other characters known here are those
of the blocks Basic Latin, Latin-1 Supplement and Latin Extended-A, the plain letters of Greek and
Cyrillic, and the common marks of General Punctuation. They are listed by what their names begin
with.
-/

namespace SourceOutline

/-- Which texts are names of characters. -/
class CharacterNames where
  isName : (name : List Char) → Bool

namespace Text

/-! ### Names in a table -/

/-- Names of characters: a beginning, and what may follow it, with commas in between. -/
def nameTable : List (String × List String) :=
  [
    ("LATIN CAPITAL LETTER ", [
      "A,B,C,D,E,F,G,H,I,J,K,L,M,N,O,P,Q,R,S,T,U,V,W,X,Y,Z,A WITH GRAVE,A WITH ACUTE",
      "A WITH CIRCUMFLEX,A WITH TILDE,A WITH DIAERESIS,A WITH RING ABOVE,AE,C WITH CEDILLA",
      "E WITH GRAVE,E WITH ACUTE,E WITH CIRCUMFLEX,E WITH DIAERESIS,I WITH GRAVE,I WITH ACUTE",
      "I WITH CIRCUMFLEX,I WITH DIAERESIS,ETH,N WITH TILDE,O WITH GRAVE,O WITH ACUTE",
      "O WITH CIRCUMFLEX,O WITH TILDE,O WITH DIAERESIS,O WITH STROKE,U WITH GRAVE,U WITH ACUTE",
      "U WITH CIRCUMFLEX,U WITH DIAERESIS,Y WITH ACUTE,THORN,A WITH MACRON,A WITH BREVE",
      "A WITH OGONEK,C WITH ACUTE,C WITH CIRCUMFLEX,C WITH DOT ABOVE,C WITH CARON,D WITH CARON",
      "D WITH STROKE,E WITH MACRON,E WITH BREVE,E WITH DOT ABOVE,E WITH OGONEK,E WITH CARON",
      "G WITH CIRCUMFLEX,G WITH BREVE,G WITH DOT ABOVE,G WITH CEDILLA,H WITH CIRCUMFLEX",
      "H WITH STROKE,I WITH TILDE,I WITH MACRON,I WITH BREVE,I WITH OGONEK,I WITH DOT ABOVE",
      "J WITH CIRCUMFLEX,K WITH CEDILLA,L WITH ACUTE,L WITH CEDILLA,L WITH CARON",
      "L WITH MIDDLE DOT,L WITH STROKE,N WITH ACUTE,N WITH CEDILLA,N WITH CARON,ENG",
      "O WITH MACRON,O WITH BREVE,O WITH DOUBLE ACUTE,R WITH ACUTE,R WITH CEDILLA,R WITH CARON",
      "S WITH ACUTE,S WITH CIRCUMFLEX,S WITH CEDILLA,S WITH CARON,T WITH CEDILLA,T WITH CARON",
      "T WITH STROKE,U WITH TILDE,U WITH MACRON,U WITH BREVE,U WITH RING ABOVE",
      "U WITH DOUBLE ACUTE,U WITH OGONEK,W WITH CIRCUMFLEX,Y WITH CIRCUMFLEX,Y WITH DIAERESIS",
      "Z WITH ACUTE,Z WITH DOT ABOVE,Z WITH CARON"]),
    ("LATIN SMALL LETTER ", [
      "A,B,C,D,E,F,G,H,I,J,K,L,M,N,O,P,Q,R,S,T,U,V,W,X,Y,Z,SHARP S,A WITH GRAVE,A WITH ACUTE",
      "A WITH CIRCUMFLEX,A WITH TILDE,A WITH DIAERESIS,A WITH RING ABOVE,AE,C WITH CEDILLA",
      "E WITH GRAVE,E WITH ACUTE,E WITH CIRCUMFLEX,E WITH DIAERESIS,I WITH GRAVE,I WITH ACUTE",
      "I WITH CIRCUMFLEX,I WITH DIAERESIS,ETH,N WITH TILDE,O WITH GRAVE,O WITH ACUTE",
      "O WITH CIRCUMFLEX,O WITH TILDE,O WITH DIAERESIS,O WITH STROKE,U WITH GRAVE,U WITH ACUTE",
      "U WITH CIRCUMFLEX,U WITH DIAERESIS,Y WITH ACUTE,THORN,Y WITH DIAERESIS,A WITH MACRON",
      "A WITH BREVE,A WITH OGONEK,C WITH ACUTE,C WITH CIRCUMFLEX,C WITH DOT ABOVE,C WITH CARON",
      "D WITH CARON,D WITH STROKE,E WITH MACRON,E WITH BREVE,E WITH DOT ABOVE,E WITH OGONEK",
      "E WITH CARON,G WITH CIRCUMFLEX,G WITH BREVE,G WITH DOT ABOVE,G WITH CEDILLA",
      "H WITH CIRCUMFLEX,H WITH STROKE,I WITH TILDE,I WITH MACRON,I WITH BREVE,I WITH OGONEK",
      "DOTLESS I,J WITH CIRCUMFLEX,K WITH CEDILLA,KRA,L WITH ACUTE,L WITH CEDILLA,L WITH CARON",
      "L WITH MIDDLE DOT,L WITH STROKE,N WITH ACUTE,N WITH CEDILLA,N WITH CARON",
      "N PRECEDED BY APOSTROPHE,ENG,O WITH MACRON,O WITH BREVE,O WITH DOUBLE ACUTE,R WITH ACUTE",
      "R WITH CEDILLA,R WITH CARON,S WITH ACUTE,S WITH CIRCUMFLEX,S WITH CEDILLA,S WITH CARON",
      "T WITH CEDILLA,T WITH CARON,T WITH STROKE,U WITH TILDE,U WITH MACRON,U WITH BREVE",
      "U WITH RING ABOVE,U WITH DOUBLE ACUTE,U WITH OGONEK,W WITH CIRCUMFLEX,Y WITH CIRCUMFLEX",
      "Z WITH ACUTE,Z WITH DOT ABOVE,Z WITH CARON,LONG S"]),
    ("GREEK CAPITAL LETTER ", [
      "ALPHA,BETA,GAMMA,DELTA,EPSILON,ZETA,ETA,THETA,IOTA,KAPPA,LAMDA,MU,NU,XI,OMICRON,PI,RHO",
      "SIGMA,TAU,UPSILON,PHI,CHI,PSI,OMEGA,IOTA WITH DIALYTIKA,UPSILON WITH DIALYTIKA"]),
    ("GREEK SMALL LETTER ", [
      "ALPHA WITH TONOS,EPSILON WITH TONOS,ETA WITH TONOS,IOTA WITH TONOS",
      "UPSILON WITH DIALYTIKA AND TONOS,ALPHA,BETA,GAMMA,DELTA,EPSILON,ZETA,ETA,THETA,IOTA,KAPPA",
      "LAMDA,MU,NU,XI,OMICRON,PI,RHO,FINAL SIGMA,SIGMA,TAU,UPSILON,PHI,CHI,PSI,OMEGA"]),
    ("CYRILLIC CAPITAL LETTER ", [
      "A,BE,VE,GHE,DE,IE,ZHE,ZE,I,SHORT I,KA,EL,EM,EN,O,PE,ER,ES,TE,U,EF,HA,TSE,CHE,SHA,SHCHA",
      "HARD SIGN,YERU,SOFT SIGN,E,YU,YA"]),
    ("CYRILLIC SMALL LETTER ", [
      "A,BE,VE,GHE,DE,IE,ZHE,ZE,I,SHORT I,KA,EL,EM,EN,O,PE,ER,ES,TE,U,EF,HA,TSE,CHE,SHA,SHCHA",
      "HARD SIGN,YERU,SOFT SIGN,E,YU,YA"]),
    ("DIGIT ", [
      "ZERO,ONE,TWO,THREE,FOUR,FIVE,SIX,SEVEN,EIGHT,NINE"]),
    ("SUPERSCRIPT ", [
      "TWO,THREE,ONE"]),
    ("VULGAR FRACTION ", [
      "ONE QUARTER,ONE HALF,THREE QUARTERS"]),
    ("", [
      "SPACE,EXCLAMATION MARK,QUOTATION MARK,NUMBER SIGN,DOLLAR SIGN,PERCENT SIGN,AMPERSAND",
      "APOSTROPHE,LEFT PARENTHESIS,RIGHT PARENTHESIS,ASTERISK,PLUS SIGN,COMMA,HYPHEN-MINUS",
      "FULL STOP,SOLIDUS,COLON,SEMICOLON,LESS-THAN SIGN,EQUALS SIGN,GREATER-THAN SIGN",
      "QUESTION MARK,COMMERCIAL AT,LEFT SQUARE BRACKET,REVERSE SOLIDUS,RIGHT SQUARE BRACKET",
      "CIRCUMFLEX ACCENT,LOW LINE,GRAVE ACCENT,LEFT CURLY BRACKET,VERTICAL LINE",
      "RIGHT CURLY BRACKET,TILDE,NO-BREAK SPACE,INVERTED EXCLAMATION MARK,CENT SIGN,POUND SIGN",
      "CURRENCY SIGN,YEN SIGN,BROKEN BAR,SECTION SIGN,DIAERESIS,COPYRIGHT SIGN",
      "FEMININE ORDINAL INDICATOR,LEFT-POINTING DOUBLE ANGLE QUOTATION MARK,NOT SIGN,SOFT HYPHEN",
      "REGISTERED SIGN,MACRON,DEGREE SIGN,PLUS-MINUS SIGN,ACUTE ACCENT,MICRO SIGN,PILCROW SIGN",
      "MIDDLE DOT,CEDILLA,MASCULINE ORDINAL INDICATOR,RIGHT-POINTING DOUBLE ANGLE QUOTATION MARK",
      "INVERTED QUESTION MARK,MULTIPLICATION SIGN,DIVISION SIGN,LATIN CAPITAL LIGATURE IJ",
      "LATIN SMALL LIGATURE IJ,LATIN CAPITAL LIGATURE OE,LATIN SMALL LIGATURE OE,HYPHEN",
      "NON-BREAKING HYPHEN,FIGURE DASH,EN DASH,EM DASH,HORIZONTAL BAR,DOUBLE VERTICAL LINE",
      "DOUBLE LOW LINE,LEFT SINGLE QUOTATION MARK,RIGHT SINGLE QUOTATION MARK",
      "SINGLE LOW-9 QUOTATION MARK,SINGLE HIGH-REVERSED-9 QUOTATION MARK",
      "LEFT DOUBLE QUOTATION MARK,RIGHT DOUBLE QUOTATION MARK,DOUBLE LOW-9 QUOTATION MARK",
      "DOUBLE HIGH-REVERSED-9 QUOTATION MARK,DAGGER,DOUBLE DAGGER,BULLET,TRIANGULAR BULLET",
      "ONE DOT LEADER,TWO DOT LEADER,HORIZONTAL ELLIPSIS,HYPHENATION POINT,LINE SEPARATOR",
      "PARAGRAPH SEPARATOR,LEFT-TO-RIGHT EMBEDDING,RIGHT-TO-LEFT EMBEDDING",
      "POP DIRECTIONAL FORMATTING,LEFT-TO-RIGHT OVERRIDE,RIGHT-TO-LEFT OVERRIDE",
      "NARROW NO-BREAK SPACE,PER MILLE SIGN,PER TEN THOUSAND SIGN,PRIME,DOUBLE PRIME",
      "TRIPLE PRIME,REVERSED PRIME,REVERSED DOUBLE PRIME,REVERSED TRIPLE PRIME,CARET",
      "SINGLE LEFT-POINTING ANGLE QUOTATION MARK,SINGLE RIGHT-POINTING ANGLE QUOTATION MARK",
      "REFERENCE MARK,DOUBLE EXCLAMATION MARK,INTERROBANG,OVERLINE,UNDERTIE,CHARACTER TIE",
      "CARET INSERTION POINT,ASTERISM,HYPHEN BULLET,FRACTION SLASH",
      "LEFT SQUARE BRACKET WITH QUILL,RIGHT SQUARE BRACKET WITH QUILL,DOUBLE QUESTION MARK"])
  ]

/-- The text behind a beginning, where it has that beginning. -/
def behind? : (beginning : List Char) → (text : List Char) → Option (List Char)
  | [], text => some text
  | _ :: _, [] => none
  | b :: beginning, c :: text => if b = c then behind? beginning text else none

/-- Whether the table has a name. -/
def isListedName (name : List Char) : Bool :=
  nameTable.any fun (beginning, lines) =>
    match behind? beginning.toList name with
    | some ending => lines.any fun line => (split ',' line.toList).contains ending
    | none => false

/-! ### Names by rule -/

/-- The ranges of the unified ideographs. -/
def ideographRanges : List (Nat × Nat) :=
  [(0x3400, 0x4DBF), (0x4E00, 0x9FFF), (0x20000, 0x2A6DF), (0x2A700, 0x2B738), (0x2B740, 0x2B81D),
    (0x2B820, 0x2CEA1), (0x2CEB0, 0x2EBE0), (0x30000, 0x3134A)]

/-- The number in base sixteen, with capital letters, as it stands in names. -/
def codeDigits (code : Nat) : List Char :=
  (Nat.toDigits 16 code).map Char.toUpper

/-- The value of a digit in base sixteen; anything else counts as zero. -/
def codeDigit (c : Char) : Nat :=
  if c.isDigit then c.toNat - '0'.toNat
  else if 'A' ≤ c && c ≤ 'F' then c.toNat - 'A'.toNat + 10
  else 0

/-- Whether a text is the name of a unified ideograph, which ends with its number. -/
def isIdeographName (name : List Char) : Bool :=
  match behind? "CJK UNIFIED IDEOGRAPH-".toList name with
  | some digits =>
    let code := (digits.take 5).foldl (fun code c => code * 16 + codeDigit c) 0
    let listed := ideographRanges.any fun (first, last) => first ≤ code && code ≤ last
    listed && codeDigits code == digits
  | none => false

/-- The names of the sounds that a syllable of Hangul begins with. -/
def hangulLeads : List String :=
  ["G", "GG", "N", "D", "DD", "R", "M", "B", "BB", "S", "SS", "", "J", "JJ", "C", "K", "T", "P",
    "H"]

/-- The names of the vowels of Hangul. -/
def hangulVowels : List String :=
  ["A", "AE", "YA", "YAE", "EO", "E", "YEO", "YE", "O", "WA", "WAE", "OE", "YO", "U", "WEO", "WE",
    "WI", "YU", "EU", "YI", "I"]

/-- The names of the sounds that a syllable of Hangul ends with. -/
def hangulTails : List String :=
  ["", "G", "GG", "GS", "N", "NJ", "NH", "D", "L", "LG", "LM", "LB", "LS", "LT", "LP", "LH", "M",
    "B", "BS", "S", "SS", "NG", "J", "C", "K", "T", "P", "H"]

/-- Whether a text is the name of a syllable of Hangul, which consists of its sounds. -/
def isSyllableName (name : List Char) : Bool :=
  match behind? "HANGUL SYLLABLE ".toList name with
  | some sounds =>
    hangulLeads.any fun lead =>
      match behind? lead.toList sounds with
      | some sounds =>
        hangulVowels.any fun vowel =>
          match behind? vowel.toList sounds with
          | some sounds => hangulTails.any fun tail => tail.toList == sounds
          | none => false
      | none => false
  | none => false

/-- Whether a text is one of the names that the program knows. -/
def isKnownName (name : List Char) : Bool :=
  let capitals := name.map Char.toUpper
  isListedName capitals || isIdeographName capitals || isSyllableName capitals

end Text

/-- The names that the program takes. -/
instance : CharacterNames := ⟨Text.isKnownName⟩

end SourceOutline
