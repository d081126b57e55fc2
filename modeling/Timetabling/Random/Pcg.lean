/-! # A permuted congruential generator

The generator's state is a 128-bit number, advanced by one step of a linear congruential
generator modulo `2^128`. Each output is made from the new state by the "double xorshift
multiply" permutation of its high half, multiplied by its low half made odd.

Bounded integers use Lemire's method: the high word of a 128-bit product, drawing again only in
the rare case where the low word falls below `2^64 mod n`; a power of two just masks. A float
in `[0, 1)` takes the low 53 bits of an output. -/

namespace Timetabling

/-- The state of the generator. -/
structure Pcg where
  state : Nat
deriving DecidableEq, Repr, Inhabited

namespace Pcg

/-- `2^64`. -/
def word : Nat := Nat.pow 2 64

/-- The multiplier of the congruential step. -/
def multiplier : Nat := 2549297995355413924 * word + 4865540595714422341

/-- The increment of the congruential step. -/
def increment : Nat := 6364136223846793005 * word + 1442695040888963407

/-- A generator seeded with two words: the high and low halves of its state. -/
def seeded (hi lo : Nat) : Pcg := ⟨(hi % word) * word + lo % word⟩

/-- Bitwise exclusive or of two words. -/
def xor (a b : Nat) : Nat := a ^^^ b

/-- One output word and the advanced generator. -/
def next (g : Pcg) : Nat × Pcg :=
  let s := (g.state * multiplier + increment) % (word * word)
  let hi := s / word
  let lo := s % word
  let hi := xor hi (hi / Nat.pow 2 32)
  let hi := (hi * 0xda942042e4dd58b5) % word
  let hi := xor hi (hi / Nat.pow 2 48)
  let hi := (hi * (lo ||| 1)) % word
  (hi, ⟨s⟩)

/-- Draw until the low word of `u · n` reaches `threshold`; `fuel` bounds the draws, which in
practice end at the first. -/
def retry (n threshold : Nat) : Nat → Nat × Pcg → Nat × Pcg
  | 0, r => r
  | fuel + 1, (_, g) =>
    let (u, g) := g.next
    if (u * n) % word < threshold then retry n threshold fuel (0, g) else ((u * n) / word, g)

/-- A uniform number in `[0, n)` for `0 < n < 2^64`. -/
def below (g : Pcg) (n : Nat) : Nat × Pcg :=
  let (u, g) := g.next
  if n &&& (n - 1) = 0 then (u &&& (n - 1), g)
  else
    let lo := (u * n) % word
    if lo < n then
      let threshold := (word - n) % n
      if lo < threshold then retry n threshold 64 (0, g) else ((u * n) / word, g)
    else ((u * n) / word, g)

/-- A uniform float in `[0, 1)` with 53 random bits. -/
def unit (g : Pcg) : Float × Pcg :=
  let (u, g) := g.next
  (Float.ofNat (u % Nat.pow 2 53) / 9007199254740992.0, g)

end Pcg

end Timetabling
