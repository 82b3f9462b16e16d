import Coordinator.Kit.Text

/-! The SHA-256 digest of a text, over lists of bytes and 32-bit words held as numbers. -/

namespace Coordinator.Kit.Sha256

/-- Apply a function to a number that is first brought to a literal, so that evaluation by the
kernel shares it. -/
def strict {α : Type} (n : Nat) (f : Nat → α) : α :=
  match n with
  | 0 => f 0
  | m + 1 => f (m + 1)

def strictList {α : Type} : List Nat → (List Nat → α) → α
  | [], f => f []
  | n :: rest, f => strict n (fun n => strictList rest (fun rest => f (n :: rest)))

def word : Nat := 4294967296

def rotate (x n : Nat) : Nat := (x >>> n) ||| ((x <<< (32 - n)) % word)

def bigSigma0 (x : Nat) : Nat := rotate x 2 ^^^ rotate x 13 ^^^ rotate x 22
def bigSigma1 (x : Nat) : Nat := rotate x 6 ^^^ rotate x 11 ^^^ rotate x 25
def sigma0 (x : Nat) : Nat := rotate x 7 ^^^ rotate x 18 ^^^ (x >>> 3)
def sigma1 (x : Nat) : Nat := rotate x 17 ^^^ rotate x 19 ^^^ (x >>> 10)

def choose (x y z : Nat) : Nat := (x &&& y) ^^^ ((word - 1 - x) &&& z)
def majority (x y z : Nat) : Nat := (x &&& y) ^^^ (x &&& z) ^^^ (y &&& z)

def roundConstants : List Nat :=
  [0x428a2f98, 0x71374491, 0xb5c0fbcf, 0xe9b5dba5, 0x3956c25b, 0x59f111f1, 0x923f82a4, 0xab1c5ed5,
    0xd807aa98, 0x12835b01, 0x243185be, 0x550c7dc3, 0x72be5d74, 0x80deb1fe, 0x9bdc06a7, 0xc19bf174,
    0xe49b69c1, 0xefbe4786, 0x0fc19dc6, 0x240ca1cc, 0x2de92c6f, 0x4a7484aa, 0x5cb0a9dc, 0x76f988da,
    0x983e5152, 0xa831c66d, 0xb00327c8, 0xbf597fc7, 0xc6e00bf3, 0xd5a79147, 0x06ca6351, 0x14292967,
    0x27b70a85, 0x2e1b2138, 0x4d2c6dfc, 0x53380d13, 0x650a7354, 0x766a0abb, 0x81c2c92e, 0x92722c85,
    0xa2bfe8a1, 0xa81a664b, 0xc24b8b70, 0xc76c51a3, 0xd192e819, 0xd6990624, 0xf40e3585, 0x106aa070,
    0x19a4c116, 0x1e376c08, 0x2748774c, 0x34b0bcb5, 0x391c0cb3, 0x4ed8aa4a, 0x5b9cca4f, 0x682e6ff3,
    0x748f82ee, 0x78a5636f, 0x84c87814, 0x8cc70208, 0x90befffa, 0xa4506ceb, 0xbef9a3f7, 0xc67178f2]

structure Working where
  a : Nat
  b : Nat
  c : Nat
  d : Nat
  e : Nat
  f : Nat
  g : Nat
  h : Nat

def initial : Working :=
  { a := 0x6a09e667, b := 0xbb67ae85, c := 0x3c6ef372, d := 0xa54ff53a,
    e := 0x510e527f, f := 0x9b05688c, g := 0x1f83d9ab, h := 0x5be0cd19 }

/-- The message schedule, newest word first. -/
def extend : Nat → List Nat → List Nat
  | 0, words => words
  | count + 1, words =>
      strict ((sigma1 (words.getD 1 0) + words.getD 6 0 + sigma0 (words.getD 14 0) + words.getD 15 0) % word)
        (fun next => extend count (next :: words))

def rounds : List Nat → List Nat → Working → Working
  | constant :: constants, w :: ws, s =>
      let first := s.h + bigSigma1 s.e + choose s.e s.f s.g + constant + w
      let second := bigSigma0 s.a + majority s.a s.b s.c
      strict (first % word) (fun first =>
        strict ((first + second) % word) (fun a =>
          strict ((s.d + first) % word) (fun e =>
            rounds constants ws ⟨a, s.a, s.b, s.c, e, s.e, s.f, s.g⟩)))
  | _, _, s => s

def add (x y : Working) : Working :=
  { a := (x.a + y.a) % word, b := (x.b + y.b) % word, c := (x.c + y.c) % word, d := (x.d + y.d) % word,
    e := (x.e + y.e) % word, f := (x.f + y.f) % word, g := (x.g + y.g) % word, h := (x.h + y.h) % word }

/-- The words of a working state as literals, most significant first. -/
def finish {α : Type} (s : Working) (next : Working → α) : α :=
  strict s.a (fun a => strict s.b (fun b => strict s.c (fun c => strict s.d (fun d =>
    strict s.e (fun e => strict s.f (fun f => strict s.g (fun g => strict s.h (fun h =>
      next ⟨a, b, c, d, e, f, g, h⟩))))))))

def compress (s : Working) (block : List Nat) : Working :=
  add s (rounds roundConstants (extend 48 block.reverse).reverse s)

def wordsOf : List Nat → List Nat
  | a :: b :: c :: d :: rest => (((a * 256 + b) * 256 + c) * 256 + d) :: wordsOf rest
  | _ => []

def blocks : Nat → List Nat → Working → Working
  | 0, _, s => s
  | count + 1, words, s => finish (compress s (words.take 16)) (blocks count (words.drop 16))

def bytesOf (count n : Nat) : List Nat :=
  (List.range count).map (fun index => n / 256 ^ (count - 1 - index) % 256)

def padded (bytes : List Nat) : List Nat :=
  let size := bytes.length
  bytes ++ 128 :: List.replicate ((119 - size % 64) % 64) 0 ++ bytesOf 8 (size * 8)

def utf8 (c : Char) : List Nat :=
  let n := c.toNat
  if n < 0x80 then [n]
  else if n < 0x800 then [0xc0 + n / 64, 0x80 + n % 64]
  else if n < 0x10000 then [0xe0 + n / 4096, 0x80 + n / 64 % 64, 0x80 + n % 64]
  else [0xf0 + n / 262144, 0x80 + n / 4096 % 64, 0x80 + n / 64 % 64, 0x80 + n % 64]

def hexWord (n : Nat) : List Char :=
  (List.range 8).map (fun index => Json.hexDigit (n / 16 ^ (7 - index) % 16))

def hexOfWorking (s : Working) : List Char :=
  hexWord s.a ++ hexWord s.b ++ hexWord s.c ++ hexWord s.d ++ hexWord s.e ++ hexWord s.f ++ hexWord s.g ++
    hexWord s.h

/-- The sixty-four hexadecimal digits of the digest of a text in UTF-8. -/
def hexdigest (cs : List Char) : String :=
  strictList (cs.flatMap utf8) (fun bytes =>
    strictList (wordsOf (padded bytes)) (fun words =>
      String.ofList (hexOfWorking (blocks (words.length / 16) words initial))))

theorem hexWord_length (n : Nat) : (hexWord n).length = 8 := by simp [hexWord]

theorem hexDigit_isHex (n : Nat) : Text.isHex (Json.hexDigit (n % 16)) = true := by
  have check : ∀ k < 16, Text.isHex (Json.hexDigit k) = true := by decide
  exact check (n % 16) (Nat.mod_lt n (by decide))

theorem hexWord_isHex (n : Nat) : (hexWord n).all Text.isHex = true := by
  simp [hexWord, hexDigit_isHex]

theorem hexOfWorking_exactly (s : Working) : Text.exactly 64 Text.isHex (hexOfWorking s) = true := by
  simp [Text.exactly, hexOfWorking, hexWord_length, hexWord_isHex]

theorem strict_eq {α : Type} (n : Nat) (f : Nat → α) : strict n f = f n := by
  cases n <;> rfl

theorem strictList_eq {α : Type} (ns : List Nat) : ∀ f : List Nat → α, strictList ns f = f ns := by
  induction ns with
  | nil => exact fun _ => rfl
  | cons n rest ih =>
    intro f
    rw [strictList, strict_eq, ih]

theorem hexdigest_eq (cs : List Char) : ∃ w : Working, hexdigest cs = String.ofList (hexOfWorking w) := by
  rw [hexdigest, strictList_eq, strictList_eq]
  exact ⟨_, rfl⟩

theorem hexText_hexdigest (cs : List Char) : Text.hexText 64 (hexdigest cs) = true := by
  obtain ⟨w, same⟩ := hexdigest_eq cs
  rw [same, Text.hexText, Text.characters_eq, String.toList_ofList]
  exact hexOfWorking_exactly w

theorem isDigest_hexdigest (cs : List Char) : Text.isDigest ("sha256:" ++ hexdigest cs) = true := by
  obtain ⟨w, same⟩ := hexdigest_eq cs
  unfold Text.isDigest
  rw [Text.characters_eq, Text.characters_eq, String.toList_append, Text.stripPrefix?_append, same, String.toList_ofList]
  exact hexOfWorking_exactly w

end Coordinator.Kit.Sha256
