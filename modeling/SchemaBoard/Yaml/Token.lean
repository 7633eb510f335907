import SchemaBoard.Data.Display
import SchemaBoard.Text.Quoted

set_option autoImplicit false

/-!
Tokens of a document, and what may be wrong with a document.
-/
namespace SchemaBoard.Yaml

/-- Why a document has no value. -/
inductive Failure where
  /-- It is no well-formed document. -/
  | malformed
  /-- An escape names a code point that does not exist. -/
  | codePoint
  /-- An escape names a number that no code point comes near to. -/
  | codePointOverflow
  /-- A number has no digits at all. -/
  | noDigits
  /-- An integer has more decimal digits than can be read. -/
  | tooManyDigits (count : Nat)
  /-- A number has so many parts in base sixty that the weight of one is no double. -/
  | weightOverflow
  /-- A text is no integer in a base. -/
  | notInteger (base : Nat) (text : Text)
  /-- A text is no number. -/
  | notNumber (text : Text)
  /-- A text is no truth value. -/
  | notFlag (text : Text)
  /-- A text is no date or time. -/
  | notMoment
  /-- A mapping stands for a date or time. -/
  | momentInMapping
  /-- The year zero. -/
  | yearZero
  /-- A month that does not exist. -/
  | noSuchMonth
  /-- A day that its month does not have. -/
  | noSuchDay
  /-- An hour that does not exist. -/
  | noSuchHour
  /-- A minute that does not exist. -/
  | noSuchMinute
  /-- A second that does not exist. -/
  | noSuchSecond
  /-- A time zone that is a day or more away, in days and seconds. -/
  | farZone (days seconds : Int)
deriving DecidableEq, Repr

/-- A unit of a document. -/
inductive Token where
  /-- The version that a document is written in. -/
  | version (major : Nat)
  /-- A handle for tags and what it stands for. -/
  | tagHandle (handle stem : Text)
  /-- A directive that says nothing here. -/
  | reserved
  | documentStart
  | documentEnd
  | blockSequenceStart
  | blockMappingStart
  | blockEnd
  | flowSequenceStart
  | flowSequenceEnd
  | flowMappingStart
  | flowMappingEnd
  | blockEntry
  | flowEntry
  | key
  | value
  | reference (name : Text)
  | anchor (name : Text)
  /-- A tag, with the handle it is given by. -/
  | tag (handle : Option Text) (suffix : Text)
  /-- A scalar; a plain one is written without quotes and indicators. -/
  | scalar (text : Text) (plain : Bool)
  /-- The place where reading stops, because no token can be read there. -/
  | unreadable (failure : Failure)
deriving DecidableEq, Repr

/-- The most decimal digits that an integer may be read from or written with. -/
def digitCapacity : Nat := 4300

/-- What is said about an integer with too many digits, up to their number. -/
def capacityMessage : Text :=
  "Exceeds the limit (".toText ++ Text.ofNat digitCapacity ++
    " digits) for integer string conversion".toText

def capacityAdvice : Text :=
  "; use sys.set_int_max_str_digits() to increase the limit".toText

/-- What is said about a failure. About some nothing is said. -/
def Failure.message : Failure → Text
  | malformed => "malformed document".toText
  | codePoint => "chr() arg not in range(0x110000)".toText
  | codePointOverflow => "Python int too large to convert to C int".toText
  | noDigits => "string index out of range".toText
  | tooManyDigits count =>
    capacityMessage ++ ": value has ".toText ++ Text.ofNat count ++ " digits".toText ++
      capacityAdvice
  | weightOverflow => "int too large to convert to float".toText
  | notInteger base text =>
    "invalid literal for int() with base ".toText ++ Text.ofNat base ++ ": ".toText ++
      text.quoted.take 200
  | notNumber text => "could not convert string to float: ".toText ++ text.quoted
  | notFlag text => text.quoted
  | notMoment | momentInMapping => []
  | yearZero => "year 0 is out of range".toText
  | noSuchMonth => "month must be in 1..12".toText
  | noSuchDay => "day is out of range for month".toText
  | noSuchHour => "hour must be in 0..23".toText
  | noSuchMinute => "minute must be in 0..59".toText
  | noSuchSecond => "second must be in 0..59".toText
  | farZone days seconds =>
    "offset must be a timedelta strictly between -timedelta(hours=24) and ".toText ++
      "timedelta(hours=24), not datetime.timedelta(days=".toText ++ Data.integerText days ++
      (if seconds = 0 then [] else ", seconds=".toText ++ Data.integerText seconds) ++ ").".toText

end SchemaBoard.Yaml
