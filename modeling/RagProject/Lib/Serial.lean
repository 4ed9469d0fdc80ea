import Mathlib.Data.Nat.Digits.Defs

/-! Texts of values as the standard library writes them: datetime.isoformat of a time in UTC, given
in microseconds after 1970-01-01, and json.dumps of a string. -/
namespace Serial

/-- Year, month and day of the day that many days after 1970-01-01. The years are counted from
March, so that the day which a leap year adds is the last one. -/
def civil (days : Int) : Int × Int × Int :=
  let shifted := days + 719468
  let era := shifted / 146097
  let dayOfEra := shifted % 146097
  let yearOfEra := (dayOfEra - dayOfEra / 1460 + dayOfEra / 36524 - dayOfEra / 146096) / 365
  let dayOfYear := dayOfEra - (365 * yearOfEra + yearOfEra / 4 - yearOfEra / 100)
  let fromMarch := (5 * dayOfYear + 2) / 153
  let day := dayOfYear - (153 * fromMarch + 2) / 5 + 1
  let month := if fromMarch < 10 then fromMarch + 3 else fromMarch - 9
  let year := yearOfEra + era * 400
  (if month ≤ 2 then year + 1 else year, month, day)

def padded (width : Nat) (n : Int) : String :=
  let digits := toString n
  String.ofList (List.replicate (width - digits.length) '0') ++ digits

/-- The microseconds are left out when there are none. -/
def isoformat (time : Int) : String :=
  let (year, month, day) := civil (time / 86400000000)
  let rest := time % 86400000000
  let micros := rest % 1000000
  let seconds := rest / 1000000
  padded 4 year ++ "-" ++ padded 2 month ++ "-" ++ padded 2 day ++ "T" ++
    padded 2 (seconds / 3600) ++ ":" ++ padded 2 (seconds / 60 % 60) ++ ":" ++
    padded 2 (seconds % 60) ++ (if micros = 0 then "" else "." ++ padded 6 micros) ++ "+00:00"

example : isoformat 1709210096000001 = "2024-02-29T12:34:56.000001+00:00" := by decide +kernel

def hex4 (n : Nat) : List Char :=
  [n / 4096 % 16, n / 256 % 16, n / 16 % 16, n % 16].map Nat.digitChar

/-- One character of a JSON string in ASCII: above the basic plane, as a surrogate pair. -/
def escaped (c : Char) : List Char :=
  if c = '"' ∨ c = '\\' then ['\\', c]
  else if ' ' ≤ c ∧ c ≤ '~' then [c]
  else match c.toNat with
    | 8 => ['\\', 'b']
    | 9 => ['\\', 't']
    | 10 => ['\\', 'n']
    | 12 => ['\\', 'f']
    | 13 => ['\\', 'r']
    | n =>
      if n < 0x10000 then ['\\', 'u'] ++ hex4 n
      else ['\\', 'u'] ++ hex4 (0xd800 + (n - 0x10000) / 1024) ++
        ['\\', 'u'] ++ hex4 (0xdc00 + (n - 0x10000) % 1024)

def quoted (text : String) : String :=
  String.ofList ('"' :: text.toList.flatMap escaped ++ ['"'])

example : quoted "a\"\n\u007f\u00e9😀" = "\"a\\\"\\n\\u007f\\u00e9\\ud83d\\ude00\"" := by
  decide +kernel

end Serial
