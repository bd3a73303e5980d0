/-
This file models how a file name is taken from the headers of a response and made safe.
-/

import Mathlib.Data.List.DropRight
import FastDownloader.Foundation.Decoding

namespace FastDownloader.Filename

open Foundation

def maxFilenameLen : Nat := 200

def fallbackFilename : List Char := "download.bin".toList

def hexDigitValue (digit : UInt8) : Option Nat :=
  if 0x30 ≤ digit && digit ≤ 0x39 then some (digit.toNat - 0x30)
  else if 0x41 ≤ digit && digit ≤ 0x46 then some (digit.toNat - 0x37)
  else if 0x61 ≤ digit && digit ≤ 0x66 then some (digit.toNat - 0x57)
  else none

/-- `percent_decode_str` turns an escape into its byte and copies a byte other than the percent sign. -/
structure PercentDecoder where
  decode : List UInt8 → List UInt8
  decode_nil : decode [] = []
  decode_escape : ∀ high low upper lower rest, hexDigitValue high = some upper → hexDigitValue low = some lower →
    decode (0x25 :: high :: low :: rest) = UInt8.ofNat (16 * upper + lower) :: decode rest
  decode_copy : ∀ byte rest, byte ≠ 0x25 → decode (byte :: rest) = byte :: decode rest

structure Param where
  name : List Char
  value : List Char
  deriving DecidableEq, Repr

def isWs (byte : UInt8) : Bool := byte = 0x20 || byte = 0x09

/-- A name ends at an equals sign, a semicolon or a blank. -/
def inName (byte : UInt8) : Bool := byte ≠ 0x3D && byte ≠ 0x3B && !isWs byte

/-- The blanks that `str::trim` strips are those of Unicode. -/
def isWhitespace (char : Char) : Bool :=
  let code := char.toNat
  (0x09 ≤ code && code ≤ 0x0D) || code = 0x20 || code = 0x85 || code = 0xA0 || code = 0x1680 ||
    (0x2000 ≤ code && code ≤ 0x200A) || code = 0x2028 || code = 0x2029 || code = 0x202F || code = 0x205F ||
    code = 0x3000

def trim (text : List Char) : List Char := (text.dropWhile isWhitespace).rdropWhile isWhitespace

def eqAscii (left right : List Char) : Bool := left.map Char.toLower = right.map Char.toLower

/-- The loop of a quoted string pushes each byte as a character of its own. It returns what follows the closing quote
too. -/
def quotedString : List UInt8 → List Char × List UInt8
  | [] => ([], [])
  | [byte] => if byte = 0x22 then ([], []) else ([Char.ofUInt8 byte], [])
  | byte :: next :: rest =>
      if byte = 0x22 then ([], next :: rest)
      else if byte = 0x5C then
        let (buf, behind) := quotedString rest
        (Char.ofUInt8 next :: buf, behind)
      else
        let (buf, behind) := quotedString (next :: rest)
        (Char.ofUInt8 byte :: buf, behind)

/-- A value is a quoted string, or it reaches up to the next semicolon. A slice that cuts a character would panic. -/
def parameterValue (bytes : List UInt8) : Option (List Char × List UInt8) :=
  if bytes.head? = some 0x22 then some (quotedString bytes.tail)
  else (decode (bytes.takeWhile (· ≠ 0x3B))).map fun token => (trim token, bytes.dropWhile (· ≠ 0x3B))

/-- The main loop of `parse_params` runs on the bytes from its cursor on. Each round consumes a byte. -/
def scanParams : Nat → List UInt8 → Option (List Param)
  | 0, _ => some []
  | _, [] => some []
  | fuel + 1, byte :: rest =>
      if byte ≠ 0x3B then scanParams fuel rest
      else
        let start := rest.dropWhile isWs
        let behindName := start.dropWhile inName
        if start.takeWhile inName = [] then scanParams fuel behindName
        else
          (decode (start.takeWhile inName)).bind fun name =>
            let equals := behindName.dropWhile isWs
            -- A parameter without a value is ignored.
            if equals.head? ≠ some 0x3D then scanParams fuel equals
            else
              (parameterValue (equals.tail.dropWhile isWs)).bind fun (value, behind) =>
                (scanParams fuel behind).map fun params => ⟨name, value⟩ :: params

/-- The disposition type is skipped. -/
def parseParams (input : List Char) : Option (List Param) :=
  let bytes := ((encode input).dropWhile isWs).dropWhile (· ≠ 0x3B)
  scanParams bytes.length bytes

/-- This is `find` with the slices before and behind the mark. -/
def splitOnce (mark : Char) (text : List Char) : Option (List Char × List Char) :=
  if mark ∈ text then some (text.takeWhile (· ≠ mark), (text.dropWhile (· ≠ mark)).tail) else none

def decodeExtValue (percent : PercentDecoder) (value : List Char) : Option (List Char) :=
  (splitOnce '\x27' value).bind fun (charset, behind) =>
    (splitOnce '\x27' behind).bind fun (_, encoded) =>
      if encoded = [] then none
      else
        let bytes := percent.decode (encode encoded)
        let charset := charset.map Char.toLower
        let decoded :=
          if charset ∈ ["".toList, "utf-8".toList, "utf8".toList] then decodeLossy bytes
          else if charset ∈ ["iso-8859-1".toList, "latin-1".toList] then bytes.map Char.ofUInt8
          else decodeLossy bytes
        if decoded = [] then none else some decoded

/-- A regular value is percent-decoded too. -/
def decodeRegularValue (percent : PercentDecoder) (value : List Char) : Option (List Char) :=
  if value = [] then none else some (decodeLossy (percent.decode (encode value)))

/-- The extended form is preferred. The outer result is absent where the source would panic. -/
def parseContentDisposition (percent : PercentDecoder) (value : List Char) : Option (Option (List Char)) :=
  (parseParams value).map fun params =>
    ((params.find? fun param => eqAscii param.name "filename*".toList).bind fun param =>
      decodeExtValue percent param.value).or
    ((params.find? fun param => eqAscii param.name "filename".toList).bind fun param =>
      decodeRegularValue percent param.value)

/-- The last segment of the path is absent when a URL has none. -/
def extractFromUrl (percent : PercentDecoder) (lastSegment : Option (List Char)) : Option (List Char) :=
  lastSegment.bind fun last =>
    if last = [] then none
    else
      let decoded := decodeLossy (percent.decode (encode last))
      if decoded = [] then none else some decoded

/-- Separators of paths, NUL, the characters that Windows reserves and control characters are replaced. -/
def replaceReserved (char : Char) : Char :=
  if char ∈ ['/', '\\', '\x00'] then '_'
  else if char ∈ ['<', '>', ':', '\x22', '|', '?', '*'] then '_'
  else if char.toNat < 0x20 then '_'
  else char

def strippedFront (char : Char) : Bool := char = '.' || char = ' ' || char = '_'

def strippedBack (char : Char) : Bool := char = '.' || char = ' '

/-- This is the name after the replacements and the two trimming loops. -/
def cleaned (name : List Char) : List Char :=
  ((name.map replaceReserved).dropWhile strippedFront).rdropWhile strippedBack

/-- This is `rfind`: the byte position of the last occurrence. -/
def rfind (char : Char) (text : List Char) : Option Nat :=
  if char ∈ text then some (byteLen (text.rdropWhile (· ≠ char)).dropLast) else none

/-- The loop pops characters of the stem, here from its reverse, until its budget ends at a boundary. -/
def popToBoundary (budget : Nat) : List Char → List Char
  | [] => []
  | char :: rest =>
      let stem := (char :: rest).reverse
      if isCharBoundary stem (min budget (byteLen stem)) then stem else popToBoundary budget rest

/-- The loop moves the cut down to a boundary. -/
def boundaryBelow (text : List Char) : Nat → Nat
  | 0 => 0
  | cut + 1 => if isCharBoundary text (cut + 1) then cut + 1 else boundaryBelow text cut

/-- The result is absent where a slice or a truncation would panic. -/
def sanitize (name : List Char) : Option (List Char) :=
  let text := cleaned name
  let cutText := truncate text (boundaryBelow text maxFilenameLen)
  if text = [] ∨ text = ['.'] ∨ text = ['.', '.'] then some fallbackFilename
  else if byteLen text > maxFilenameLen then
    match rfind '.' text with
    | some dot =>
        (splitAtByte text dot).bind fun (front, extension) =>
          if byteLen extension ≤ 16 ∧ dot > 0 then
            let budget := maxFilenameLen - byteLen extension
            let stem := popToBoundary budget front.reverse
            (truncate stem (min budget (byteLen stem))).map (· ++ extension)
          else cutText
    | none => cutText
  else some text

/-- A header is absent here when it is missing or is not visible ASCII. -/
def deriveFilename (percent : PercentDecoder) (contentDisposition lastSegment : Option (List Char)) :
    Option (List Char) :=
  (match contentDisposition with
    | some value => parseContentDisposition percent value
    | none => some none).bind fun extracted =>
      sanitize ((extracted.or (extractFromUrl percent lastSegment)).getD [])

end FastDownloader.Filename
