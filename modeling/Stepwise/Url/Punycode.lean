/-!
# Punycode

Labels of domain names beyond ASCII are written in ASCII: first the characters of ASCII, and behind
a hyphen where the others stand, as a sequence of variable-length numbers in base 36.

* `length_number`: reading a number uses up characters.
-/

namespace Stepwise.Url.Punycode

/-- A digit in base 36. -/
def digit (d : Nat) : Char := if d < 26 then Char.ofNat (97 + d) else Char.ofNat (22 + d)

/-- The value of a digit in base 36. -/
def digitValue? (c : Char) : Option Nat :=
  if 'a' ≤ c && c ≤ 'z' then some (c.toNat - 97)
  else if 'A' ≤ c && c ≤ 'Z' then some (c.toNat - 65)
  else if c.isDigit then some (c.toNat - 22)
  else none

/-- The least value of a digit behind which a number goes on. -/
def threshold (k bias : Nat) : Nat :=
  if k ≤ bias then 1 else if bias + 26 ≤ k then 26 else k - bias

theorem threshold_pos (k bias : Nat) : 0 < threshold k bias := by
  unfold threshold; split
  · omega
  · split <;> omega

/-- Divides by 35 until little is left, and counts 36 for each time. -/
def shrink (delta k : Nat) : Nat × Nat :=
  if 455 < delta then shrink (delta / 35) (k + 36) else (delta, k)
termination_by delta
decreasing_by omega

/-- The bias for the next number, given the last one and how many characters there are. -/
def adapt (delta count : Nat) (first : Bool) : Nat :=
  let delta := if first then delta / 700 else delta / 2
  let (delta, k) := shrink (delta + delta / count) 0
  k + 36 * delta / (delta + 38)

/-- A number in variable length. -/
def writeNumber (bias k n : Nat) : List Char :=
  let t := threshold k bias
  if n < t then [digit n]
  else digit (t + (n - t) % (36 - t)) :: writeNumber bias (k + 36) ((n - t) / (36 - t))
termination_by n
decreasing_by
  have h := threshold_pos k bias
  have := Nat.div_le_self (n - threshold k bias) (36 - threshold k bias)
  omega

/-- Where writing stands: what is written, the distance run up, the bias, and how many characters
are behind. -/
structure Writer where
  out : List Char
  delta : Nat
  bias : Nat
  done : Nat

/-- Passes over one character while the code point `m` is being written. -/
def Writer.pass (basic m : Nat) (w : Writer) (c : Char) : Writer :=
  if c.toNat < m then { w with delta := w.delta + 1 }
  else if c.toNat = m then
    { out := w.out ++ writeNumber w.bias 36 w.delta, delta := 0,
      bias := adapt w.delta (w.done + 1) (w.done == basic), done := w.done + 1 }
  else w

/-- Writes the places of the given code points, the last of which was below `n`. -/
def writePlaces (input : List Char) (basic : Nat) : List Nat → Nat → Writer → Writer
  | [], _, w => w
  | m :: rest, n, w =>
    let w := input.foldl (Writer.pass basic m)
      { w with delta := w.delta + (m - n) * (w.done + 1) }
    writePlaces input basic rest (m + 1) { w with delta := w.delta + 1 }

/-- A label in ASCII, without the mark that says so. -/
def encode (input : List Char) : List Char :=
  let basic := input.filter (·.toNat < 128)
  let others := ((input.filter (128 ≤ ·.toNat)).map Char.toNat).mergeSort.eraseDups
  let written := writePlaces input basic.length others 128 ⟨[], 0, 72, basic.length⟩
  basic ++ (if basic.isEmpty then [] else ['-']) ++ written.out

/-- Reads a number that adds to `i`, and returns what follows it. -/
def number (bias : Nat) : List Char → Nat → Nat → Nat → Option (Nat × List Char)
  | [], _, _, _ => none
  | c :: rest, k, weight, i =>
    match digitValue? c with
    | none => none
    | some d =>
      let t := threshold k bias
      if d < t then some (i + d * weight, rest)
      else number bias rest (k + 36) (weight * (36 - t)) (i + d * weight)

theorem length_number {bias : Nat} {cs rest : List Char} {k weight i n : Nat}
    (h : number bias cs k weight i = some (n, rest)) : rest.length < cs.length := by
  induction cs generalizing k weight i with
  | nil => simp [number] at h
  | cons c cs ih =>
    rw [number] at h
    split at h
    · simp at h
    · dsimp only at h
      split at h
      · cases h; simp
      · have := ih h
        simp only [List.length_cons]
        omega

/-- Puts the characters in their places. -/
def places (bias n i : Nat) (out : List Char) (cs : List Char) : Option (List Char) :=
  match cs with
  | [] => some out
  | c :: cs' =>
    match _h : number bias (c :: cs') 36 1 i with
    | none => none
    | some (j, rest) =>
      let count := out.length + 1
      let n := n + j / count
      if n.isValidChar then
        places (adapt (j - i) count (i == 0)) n (j % count + 1)
          (out.insertIdx (j % count) (Char.ofNat n)) rest
      else none
termination_by cs.length
decreasing_by exact length_number _h

/-- The label behind its form in ASCII. -/
def decode (input : List Char) : Option (List Char) :=
  let tail := (input.reverse.takeWhile (· != '-')).reverse
  let basic := input.take (input.length - tail.length - 1)
  places 72 128 0 basic tail

end Stepwise.Url.Punycode
