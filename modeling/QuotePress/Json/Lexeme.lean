import QuotePress.Json.Numeral

/-! # Lexemes of JSON

A text is cut into punctuation, quoted texts, numbers and words. What is wrong inside of a lexeme
is kept with it, because a reader that wants its value and a reader that skips it refuse
different things: skipping asks for the form only. -/
namespace QuotePress.Json

/-- A value that is neither a text nor made of other values. -/
inductive Atom where
  | null
  | boolean (b : Bool)
  | number (n : Number)
  deriving DecidableEq

/-- A lexeme. A quoted text and an atom come with their value, and with the fault that stops even a
reader that skips them. -/
inductive Lexeme where
  | beginArray
  | endArray
  | beginObject
  | endObject
  | comma
  | colon
  | string (value : Except Fault String) (stop : Option Fault)
  | atom (value : Except Fault Atom) (stop : Option Fault)
  | junk

def isSpace (c : Char) : Bool :=
  c = ' ' || c = '\n' || c = '\t' || c = '\r'

def skipWord : List Char → List Char → Except Fault (List Char)
  | [], cs => .ok cs
  | _ :: _, [] => .error .ended
  | w :: word, c :: cs => if w = c then skipWord word cs else .error .malformed

def lexWord (word : String) (meaning : Atom) (cs : List Char) : Lexeme × List Char :=
  match skipWord word.toList cs with
  | .ok rest => (.atom (.ok meaning) none, rest)
  | .error f => (.atom (.error f) (some f), [])

def lexNumber (cs : List Char) : Lexeme × List Char :=
  match scanNumber cs with
  | .found l rest => (.atom ((Number.ofLiteral l).map .number) none, rest)
  | .broken strict skipped => (.atom (.error strict) (some skipped), [])

/-- A quoted text, after its opening quote. -/
def lexString (cs : List Char) : Lexeme × List Char :=
  let value := (stringValue cs).map String.ofList
  match skipString cs with
  | .ok rest => (.string value none, rest)
  | .error f => (.string value (some f), [])

def punctuation? (c : Char) : Option Lexeme :=
  if c = '[' then some .beginArray
  else if c = ']' then some .endArray
  else if c = '\x7b' then some .beginObject
  else if c = '\x7d' then some .endObject
  else if c = ',' then some .comma
  else if c = ':' then some .colon
  else none

/-- The word that starts with a character: the rest of it, and what it means. -/
def wordFrom? (c : Char) : Option (String × Atom) :=
  if c = 'n' then some ("ull", .null)
  else if c = 't' then some ("rue", .boolean true)
  else if c = 'f' then some ("alse", .boolean false)
  else none

/-- The lexeme at the start of a text, and what follows it. Nothing follows a lexeme that stops
every reader. -/
def lexOne (c : Char) (rest : List Char) : Lexeme × List Char :=
  match punctuation? c with
  | some lexeme => (lexeme, rest)
  | none =>
    match wordFrom? c with
    | some (word, meaning) => lexWord word meaning rest
    | none =>
      if c = '"' then lexString rest
      else if c = '-' ∨ c.isDigit then lexNumber (c :: rest)
      else (.junk, [])

theorem length_dropWhile_le (p : Char → Bool) (cs : List Char) :
    (cs.dropWhile p).length ≤ cs.length :=
  (List.dropWhile_suffix p).length_le

theorem length_skipWord {word cs rest : List Char} (h : skipWord word cs = .ok rest) :
    rest.length ≤ cs.length := by
  induction word generalizing cs with
  | nil =>
    rw [skipWord] at h
    cases h
    exact Nat.le_refl _
  | cons w word ih =>
    cases cs with
    | nil => rw [skipWord] at h; cases h
    | cons c cs =>
      rw [skipWord] at h
      split at h
      · have := ih h
        simp only [List.length_cons]
        omega
      · cases h

theorem length_lexWord (word : String) (meaning : Atom) (cs : List Char) :
    (lexWord word meaning cs).2.length ≤ cs.length := by
  rw [lexWord]
  split
  · rename_i h
    exact length_skipWord h
  · simp

/-- What follows a lexeme is shorter than the text it stands in. -/
theorem length_lexOne (c : Char) (rest : List Char) :
    (lexOne c rest).2.length ≤ rest.length := by
  rw [lexOne]
  split
  · exact Nat.le_refl _
  split
  · exact length_lexWord ..
  split
  · rw [lexString]
    split
    · rename_i h
      exact Nat.le_of_lt (length_skipString h)
    · simp
  split
  · rw [lexNumber]
    split
    · rename_i h
      have := length_scanNumber h
      simp only [List.length_cons] at this
      dsimp only
      omega
    · simp
  · simp

def lex (cs : List Char) : List Lexeme :=
  match h : cs.dropWhile isSpace with
  | [] => []
  | c :: rest =>
    let next := lexOne c rest
    have : next.2.length < cs.length := by
      have h1 : next.2.length ≤ rest.length := length_lexOne c rest
      have h2 := length_dropWhile_le isSpace cs
      rw [h, List.length_cons] at h2
      omega
    next.1 :: lex next.2
termination_by cs.length

end QuotePress.Json
