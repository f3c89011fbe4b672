import SchemaTransfer.Encoding.SingleByte
import SchemaTransfer.Encoding.Utf8
import SchemaTransfer.Encoding.Utf16
import SchemaTransfer.Text.Lines

/-!
# Encodings of a dump

An encoding is chosen by name or guessed from the bytes. In names, case does not count, and any run
of characters that are no ASCII letters, digits or points counts as one underscore, or as nothing
at either end. What other encodings a platform knows is a parameter.
-/
namespace SchemaTransfer

inductive Encoding
  | utf8
  /-- UTF-8 behind an optional mark. -/
  | utf8Marked
  /-- UTF-16 in the byte order of its mark. -/
  | utf16
  | utf16Little
  | utf16Big
  | ascii
  | latin1
  | latin9
  deriving DecidableEq, Inhabited

namespace Encoding

def all : List Encoding :=
  [.utf8, .utf8Marked, .utf16, .utf16Little, .utf16Big, .ascii, .latin1, .latin9]

/-- The name that stands for the encoding without being an alias. -/
def properName : Encoding → String
  | utf8 => "utf_8"
  | utf8Marked => "utf_8_sig"
  | utf16 => "utf_16"
  | utf16Little => "utf_16_le"
  | utf16Big => "utf_16_be"
  | ascii => "ascii"
  | latin1 => "latin_1"
  | latin9 => "iso8859_15"

def aliases : Encoding → List String
  | utf8 => ["cp65001", "u8", "utf", "utf8", "utf8_ucs2", "utf8_ucs4"]
  | utf8Marked => []
  | utf16 => ["u16", "utf16"]
  | utf16Little => ["unicodelittleunmarked", "utf_16le"]
  | utf16Big => ["unicodebigunmarked", "utf_16be"]
  | ascii =>
    ["646", "ansi_x3.4_1968", "ansi_x3.4_1986", "ansi_x3_4_1968", "cp367", "csascii", "ibm367",
     "iso646_us", "iso_646.irv_1991", "iso_ir_6", "us", "us_ascii"]
  | latin1 =>
    ["8859", "cp819", "csisolatin1", "ibm819", "iso8859", "iso8859_1", "iso_8859_1",
     "iso_8859_1_1987", "iso_ir_100", "l1", "latin", "latin1"]
  | latin9 => ["iso_8859_15", "l9", "latin9"]

/-- `gap` tells whether separators stand before, `started` whether anything else does. -/
def normalizeFrom (started gap : Bool) : List Char → List Char
  | [] => []
  | c :: cs =>
    if c.isAlphanum || c == '.' then
      (if started && gap then ['_'] else []) ++ c.toLower :: normalizeFrom true false cs
    else normalizeFrom started true cs

def normalizedName (name : String) : String := .ofList (normalizeFrom false false name.toList)

/-- In aliases a point may stand for an underscore. -/
def ofName? (name : String) : Option Encoding :=
  let name := normalizedName name
  let undotted := String.ofList (name.toList.map fun c => if c == '.' then '_' else c)
  all.find? fun e =>
    e.properName == name || e.aliases.contains name || e.aliases.contains undotted

def decode (e : Encoding) (bytes : List UInt8) : Except Fault (List Char) :=
  match e with
  | utf8 => Utf8.decode bytes
  | utf8Marked => Utf8.decodeMarked bytes
  | utf16 => Utf16.decodeMarked bytes
  | utf16Little => Utf16.decodeFrom .little 0 bytes
  | utf16Big => Utf16.decodeFrom .big 0 bytes
  | ascii => SingleByte.asciiFrom 0 bytes
  | latin1 => .ok (SingleByte.latin1 bytes)
  | latin9 => .ok (SingleByte.latin9 bytes)

/-- The encoding that a mark announces; without a mark UTF-8 if the bytes are valid in it, and ISO
8859-15, which every byte belongs to, if they are not. -/
def guess (bytes : List UInt8) : Encoding :=
  if (Utf8.mark.isPrefixOf bytes) then .utf8Marked
  else if (Utf16.littleMark.isPrefixOf bytes) || (Utf16.bigMark.isPrefixOf bytes) then .utf16
  else if Utf8.isValid bytes then .utf8
  else .latin9

/-- The name under which a guess is reported. -/
def guessName : Encoding → String
  | utf8 => "utf-8"
  | utf8Marked => "utf-8-sig"
  | utf16 => "utf-16"
  | utf16Little => "utf-16-le"
  | utf16Big => "utf-16-be"
  | ascii => "ascii"
  | latin1 => "latin-1"
  | latin9 => "iso8859-15"

end Encoding

/-- Why the bytes of a dump have no lines. -/
inductive ReadFailure
  | unknownEncoding (name : String)
  | undecodable (fault : Encoding.Fault)
  /-- Any other failure of a decoder, in its words. -/
  | decoder (text : String)
  deriving DecidableEq, Inhabited

def ReadFailure.message : ReadFailure → String
  | .unknownEncoding name => s!"unknown encoding: {name}"
  | .undecodable fault => fault.message
  | .decoder text => text

/-- The decoders that a platform has besides those above, by the names that are asked for. -/
def Codecs : Type := String → List UInt8 → Except ReadFailure (List Char)

/-- No other decoders. -/
def Codecs.none : Codecs := fun name _ => .error (.unknownEncoding name)

/-- The text of a dump in the encoding of a name, or in the guessed one. Nothing is decoded to
nothing, whatever the name. -/
def readText (codecs : Codecs) (encoding : Option String) (bytes : List UInt8) :
    Except ReadFailure (List Char) :=
  if bytes.isEmpty then .ok []
  else
    match encoding with
    | none => ((Encoding.guess bytes).decode bytes).mapError .undecodable
    | some name =>
      match Encoding.ofName? name with
      | some e => (e.decode bytes).mapError .undecodable
      | none => codecs name bytes

def readLines (codecs : Codecs) (encoding : Option String) (bytes : List UInt8) :
    Except ReadFailure (List (List Char)) :=
  (readText codecs encoding bytes).map (List.splitOn '\n')

/-- What is reported about the encoding of a dump. -/
def encodingRemark (encoding : Option String) (bytes : List UInt8) : String :=
  match encoding with
  | some name => s!"  Input encoding: {name}"
  | none => s!"  Input encoding: {(Encoding.guess bytes).guessName} (guessed)"

end SchemaTransfer
