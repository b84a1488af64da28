/-! Text as bytes, text without the blanks at its ends, and quoted text. `fitting n` is the longest beginning of a
text, in whole characters, that takes at most `n` bytes, and `readable` the longest beginning of some bytes that is
a text at all. Blank is what has the Unicode property White_Space (25 code points since version 6.3). In quoted text
a quote is written twice. -/

namespace Rowmap.Text

def bytes (s : List Char) : List UInt8 := s.flatMap String.utf8EncodeChar

def fitting : Nat → List Char → List Char
  | _, [] => []
  | n, c :: s => if c.utf8Size ≤ n then c :: fitting (n - c.utf8Size) s else []

def ofBytes? (bs : List UInt8) : Option String := String.fromUTF8? ⟨bs.toArray⟩

/-- The text spelt by the longest readable beginning of at most `k` bytes. -/
def readableUpTo (bs : List UInt8) : Nat → String
  | 0 => ""
  | k + 1 => (ofBytes? (bs.take (k + 1))).getD (readableUpTo bs k)

def readable (bs : List UInt8) : String := readableUpTo bs bs.length

theorem length_bytes_fitting (n : Nat) (s : List Char) : (bytes (fitting n s)).length ≤ n := by
  induction s generalizing n with
  | nil => simp [fitting, bytes]
  | cons c s ih =>
    unfold fitting
    split
    · have := ih (n - c.utf8Size)
      simp only [bytes, List.flatMap_cons, List.length_append, String.length_utf8EncodeChar] at this ⊢
      omega
    · simp [bytes]

/-- Closed ranges of code points, ascending and apart. -/
def blankRanges : List (Nat × Nat) :=
  [(0x09, 0x0D), (0x20, 0x20), (0x85, 0x85), (0xA0, 0xA0), (0x1680, 0x1680), (0x2000, 0x200A),
   (0x2028, 0x2029), (0x202F, 0x202F), (0x205F, 0x205F), (0x3000, 0x3000)]

def inRanges (rs : List (Nat × Nat)) (n : Nat) : Bool := rs.any fun r => r.1 ≤ n && n ≤ r.2

def isBlank (c : Char) : Bool := inRanges blankRanges c.toNat

def trimStart (s : List Char) : List Char := s.dropWhile isBlank

def trimEnd (s : List Char) : List Char := (s.reverse.dropWhile isBlank).reverse

def trim (s : List Char) : List Char := trimEnd (trimStart s)

example : isBlank 'a' = false ∧ isBlank '\u200b' = false ∧ isBlank '\u3000' = true := by decide

def stripped (s : String) : String := String.ofList (s.toList.reverse.dropWhile (· = ' ')).reverse

namespace Quoted

def encode : List Char → List Char
  | [] => []
  | c :: s => if c = '\'' then '\'' :: '\'' :: encode s else c :: encode s

def quoted (s : List Char) : List Char := '\'' :: (encode s ++ ['\''])

/-- What stands before the closing mark, and what follows it. A mark that is doubled is part of the
contents and counts once. -/
def body? (mark : Char) : List Char → Option (List Char × List Char)
  | [] => none
  | c :: s =>
    if c = mark then
      match s with
      | [] => some ([], [])
      | d :: r => if d = mark then (body? mark r).map fun p => (mark :: p.1, p.2) else some ([], d :: r)
    else (body? mark s).map fun p => (c :: p.1, p.2)

def read? : List Char → Option (List Char × List Char)
  | '\'' :: s => body? '\'' s
  | _ => none

/-- Behind the text no mark may follow, as it would be doubled then. -/
theorem body?_encode (s : List Char) {rest : List Char} (h : rest.head? ≠ some '\'') :
    body? '\'' (encode s ++ '\'' :: rest) = some (s, rest) := by
  induction s with
  | nil =>
    cases rest with
    | nil => rfl
    | cons d r =>
      have hd : d ≠ '\'' := fun hd => h (congrArg some hd)
      simp only [encode, List.nil_append, body?, if_true, if_neg hd]
  | cons c s ih =>
    by_cases hc : c = '\''
    · subst hc
      simp only [encode, if_true, List.cons_append, body?, ih, Option.map_some]
    · rw [encode, if_neg hc, List.cons_append]
      unfold body?
      rw [if_neg hc, ih]
      rfl

end Quoted

def quote (s : String) : String := String.ofList (Quoted.quoted s.toList)

end Rowmap.Text
