import Mathlib.Order.Monotone.Defs
import Mathlib.Data.Nat.Digits.Defs
import OpenBioUnlock.Codec.Hex

/-!
# The Qt types the desktop server is written in

`QByteArray` is a list of bytes and `QString` a list of UTF-16 code units, lone
surrogates included: a JSON string from the network can hold one.  The
conversions are the documented ones — `toLatin1` and `toUtf8` write `?` for what
they cannot encode, `fromHex` skips what is no digit.

The JSON reader and writer themselves, and the conversions of a JSON number or
string to `qint64`, are Qt's and enter as the structure `Qt`.

What a call reads from its surroundings is its `Env`: the readings of
`QDateTime::currentSecsSinceEpoch()`, in the order the call makes them, and the
draws of `QRandomGenerator::global()->generate64()`.
-/

namespace OpenBioUnlock.Desktop

open Codec

abbrev QByteArray := List UInt8

abbrev QString := List UInt16

/-- `QStringLiteral`, for the ASCII literals of the source. -/
def qStringLiteral (text : String) : QString :=
  (ascii text).map UInt8.toUInt16

def fromLatin1 (bytes : QByteArray) : QString :=
  bytes.map UInt8.toUInt16

def toLatin1 (text : QString) : QByteArray :=
  text.map fun c => if c < 256 then c.toUInt8 else 63

def toHex (bytes : QByteArray) : QByteArray :=
  hexEncode bytes

def fromHex (text : QByteArray) : QByteArray :=
  hexDecodeLoose text

@[simp] theorem toLatin1_fromLatin1 (bytes : QByteArray) : toLatin1 (fromLatin1 bytes) = bytes := by
  induction bytes with
  | nil => rfl
  | cons b rest ih =>
      have hb : b.toUInt16 < 256 := by
        have := b.toNat_lt
        rw [UInt16.lt_iff_toNat_lt]
        simpa using this
      have hback : b.toUInt16.toUInt8 = b := by simp
      simp only [toLatin1, fromLatin1, List.map_map, List.map_cons] at ih ⊢
      rw [if_pos hb, hback, ih]

/-- A byte string put into JSON as hex text is read back unchanged. -/
theorem fromHex_toHex (bytes : QByteArray) :
    fromHex (toLatin1 (fromLatin1 (toHex bytes))) = bytes := by
  simp [fromHex, toHex]

/-! ## Text -/

/-- The UTF-8 bytes of a code point. -/
def encodeUtf8 (code : ℕ) : QByteArray :=
  if code < 0x80 then [UInt8.ofNat code]
  else if code < 0x800 then [UInt8.ofNat (0xC0 + code / 64), UInt8.ofNat (0x80 + code % 64)]
  else if code < 0x10000 then
    [UInt8.ofNat (0xE0 + code / 4096), UInt8.ofNat (0x80 + code / 64 % 64),
      UInt8.ofNat (0x80 + code % 64)]
  else
    [UInt8.ofNat (0xF0 + code / 262144), UInt8.ofNat (0x80 + code / 4096 % 64),
      UInt8.ofNat (0x80 + code / 64 % 64), UInt8.ofNat (0x80 + code % 64)]

def isHighSurrogate (c : UInt16) : Bool := 0xD800 ≤ c && c ≤ 0xDBFF

def isLowSurrogate (c : UInt16) : Bool := 0xDC00 ≤ c && c ≤ 0xDFFF

/-- `QString::toUtf8`: a surrogate without its partner becomes `?`. -/
def toUtf8 : QString → QByteArray
  | [] => []
  | [c] =>
      if isHighSurrogate c || isLowSurrogate c then [63] else encodeUtf8 c.toNat
  | c :: d :: rest =>
      if isHighSurrogate c then
        if isLowSurrogate d then
          encodeUtf8 (0x10000 + (c.toNat - 0xD800) * 1024 + (d.toNat - 0xDC00)) ++ toUtf8 rest
        else 63 :: toUtf8 (d :: rest)
      else if isLowSurrogate c then 63 :: toUtf8 (d :: rest)
      else encodeUtf8 c.toNat ++ toUtf8 (d :: rest)

/-- The digits of a natural number, most significant first. -/
def digitsOf (base n : ℕ) : QByteArray :=
  if n = 0 then [48]
  else (Nat.digits base n).reverse.map fun d => hexDigit (UInt8.ofNat d)

/-- `QByteArray::number` in decimal. -/
def number (n : Int64) : QByteArray :=
  if n < 0 then 45 :: digitsOf 10 n.toInt.natAbs else digitsOf 10 n.toInt.natAbs

/-- `QString::rightJustified`, which pads on the left. -/
def rightJustified (text : QString) (width : ℕ) (fill : UInt16) : QString :=
  List.replicate (width - text.length) fill ++ text

/-! ## JSON -/

inductive QJsonValue where
  | undefined
  | null
  | bool (b : Bool)
  | integer (n : Int64)
  /-- a number that is no 64-bit integer, by its IEEE bits -/
  | double (bits : UInt64)
  | string (s : QString)
  | array (items : List QJsonValue)
  | object (fields : List (QString × QJsonValue))

abbrev QJsonObject := List (QString × QJsonValue)

/-- `QJsonObject::value`. -/
def value (object : QJsonObject) (key : String) : QJsonValue :=
  (object.lookup (qStringLiteral key)).getD .undefined

/-- `QJsonValue::toString`: the empty string for anything but a string. -/
def QJsonValue.toString : QJsonValue → QString
  | .string s => s
  | _ => []

/-- A JSON object field of the source's initializer lists. -/
def field (key : String) (v : QJsonValue) : QString × QJsonValue :=
  (qStringLiteral key, v)

/-- A string literal as a JSON value. -/
def text (s : String) : QJsonValue := .string (qStringLiteral s)

/-- A byte string as hex text in JSON, `QString::fromLatin1(bytes.toHex())`. -/
def hexText (bytes : QByteArray) : QJsonValue := .string (fromLatin1 (toHex bytes))

/-- `QByteArray::fromHex(value.toString().toLatin1())`. -/
def fromHexText (v : QJsonValue) : QByteArray := fromHex (toLatin1 v.toString)

/-- What Qt's JSON support does. -/
structure Qt where
  /-- `QJsonDocument::fromJson`: the object read, if there is no parse error and
  the document is an object -/
  fromJson : QByteArray → Option QJsonObject
  /-- `QJsonDocument(object).toJson(QJsonDocument::Compact)` -/
  toJson : QJsonObject → QByteArray
  /-- `QVariant(double).toLongLong()` -/
  doubleToLongLong : UInt64 → Int64
  /-- `QVariant(QString).toLongLong()` -/
  stringToLongLong : QString → Int64

/-- `value.toVariant().toLongLong()`. -/
def Qt.toLongLong (qt : Qt) : QJsonValue → Int64
  | .integer n => n
  | .double bits => qt.doubleToLongLong bits
  | .string s => qt.stringToLongLong s
  | .bool b => if b then 1 else 0
  | _ => 0

/-! ## Clock and random draws -/

/-- A reading of the clock, in seconds since the epoch. -/
structure EpochSecs where
  secs : Int64
  nonneg : 0 ≤ secs
  deriving DecidableEq

/-- The epoch, which `qint64` members start at. -/
instance : Zero EpochSecs := ⟨⟨0, by decide⟩⟩

instance : Preorder EpochSecs where
  le a b := a.secs ≤ b.secs
  le_refl a := Int64.le_refl a.secs
  le_trans _ _ _ := Int64.le_trans

instance (a b : EpochSecs) : Decidable (a ≤ b) := inferInstanceAs (Decidable (a.secs ≤ b.secs))

theorem EpochSecs.le_def {a b : EpochSecs} : a ≤ b ↔ a.secs ≤ b.secs := Iff.rfl

/-- `b - a` in `qint64`. -/
def EpochSecs.since (b a : EpochSecs) : Int64 := b.secs - a.secs

/-- Between two clock readings the 64-bit difference is the true one. -/
theorem EpochSecs.toInt_since (a b : EpochSecs) :
    (a.since b).toInt = a.secs.toInt - b.secs.toInt := by
  have ha := Int64.le_iff_toInt_le.mp a.nonneg
  have hb := Int64.le_iff_toInt_le.mp b.nonneg
  have ha' := a.secs.toInt_lt
  have hb' := b.secs.toInt_lt
  rw [EpochSecs.since, Int64.toInt_sub]
  simp only [Int64.toInt_zero] at ha hb
  rw [Int.bmod_def]
  split <;> omega

/-- What one call reads from outside: its clock readings, in order, and the
64-bit draws it makes. -/
structure Env where
  clock : ℕ → EpochSecs
  clock_mono : Monotone clock
  random : ℕ → UInt64

/-- The bytes of a 64-bit draw, as `memcpy` copies them. -/
def drawBytes (draw : UInt64) : QByteArray :=
  (List.range 8).map fun i => (draw >>> UInt64.ofNat (8 * i)).toUInt8

/-- A buffer of `size` bytes filled eight at a time from the draws. -/
def fillRandom (random : ℕ → UInt64) (size : ℕ) : QByteArray :=
  ((List.range ((size + 7) / 8)).flatMap fun i => drawBytes (random i)).take size

@[simp] theorem fillRandom_length (random : ℕ → UInt64) (size : ℕ) :
    (fillRandom random size).length = size := by
  simp only [fillRandom, drawBytes, List.length_take, List.length_flatMap, List.length_map,
    List.length_range, List.map_const', List.sum_replicate_nat]
  omega

end OpenBioUnlock.Desktop
