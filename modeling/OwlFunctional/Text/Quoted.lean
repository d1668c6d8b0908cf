/-! The inside of a quoted string: a backslash stands before a quote or a backslash of the value. -/

set_option autoImplicit false

namespace OwlFunctional.Text

def escape : List Char → List Char
  | [] => []
  | c :: rest => if c = '"' ∨ c = '\\' then '\\' :: c :: escape rest else c :: escape rest

/-- The value of the inside of a quoted string. A backslash before any other character, or at
the end, stands for itself. -/
def unescape : List Char → List Char
  | [] => []
  | '\\' :: '"' :: rest => '"' :: unescape rest
  | '\\' :: '\\' :: rest => '\\' :: unescape rest
  | '\\' :: c :: rest => '\\' :: c :: unescape rest
  | c :: rest => c :: unescape rest

theorem unescape_escape (value : List Char) : unescape (escape value) = value := by
  induction value with
  | nil => rfl
  | cons c rest ih =>
    by_cases quote : c = '"'
    · simp [escape, unescape, quote, ih]
    · by_cases slash : c = '\\'
      · simp [escape, unescape, slash, ih]
      · simp [escape, unescape, quote, slash, ih]

/-- Splits the text after an opening quote at the closing one: the first quote that no backslash
escapes. The rest is missing if the text ends before it. -/
def splitQuoted : List Char → List Char × Option (List Char)
  | [] => ([], none)
  | '"' :: rest => ([], some rest)
  | '\\' :: c :: rest =>
    let (inside, rest) := splitQuoted rest
    ('\\' :: c :: inside, rest)
  | c :: rest =>
    let (inside, rest) := splitQuoted rest
    (c :: inside, rest)

theorem splitQuoted_escape (value rest : List Char) :
    splitQuoted (escape value ++ '"' :: rest) = (escape value, some rest) := by
  induction value with
  | nil => rfl
  | cons c value ih =>
    by_cases special : c = '"' ∨ c = '\\'
    · simp [escape, splitQuoted, special, ih]
    · rw [not_or] at special
      simp [escape, splitQuoted, special.1, special.2, ih]

end OwlFunctional.Text
