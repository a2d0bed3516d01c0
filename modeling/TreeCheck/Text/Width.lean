import TreeCheck.Text.Cluster
import TreeCheck.Text.Utf8

/-!
How many columns of a terminal a text takes. A cluster is as wide as its first character of width
one or two; control and combining characters take no column, wide and fullwidth ones take two.
-/

namespace TreeCheck.Text

def combining : Ranges := .read "
lc 34 7n 7 o1 9 ss 1 3 1 6m 1 c 2 197 3 1en 1 1c v 4c 9 gc 1s k0 x 2da 3 6m w ih 2 n9w 4 1 a w 2
28 2 dq i gtq g r1 1 ag 5 27k 2 49 b 1d 4 oq 2 1l 2 15 7 3 5 ha3 5 jrf 1a 2 n f2 5 3 6 8 8 2 7 u
4 44 3 2pn 7 1 h 2 7 1 2 1 5 2s 1 1mo 7"

def wide : Ranges := .read "
3cw 2o 3i2 2 d 2 5a 4 3 1 2 1 eh 2 l 2 1e c 17 1 j 1 d 1 8 2 h 2 5 2 8 1 5 1 l 1 7 2 1 1 4 1 2 1
7 1 4 2 s 1 z 1 1 1 4 3 1 1 1p 3 o 1 e 1 nv 2 1f 1 4 1 mi q 1 2h c 5y q 27 2 2e 2 2v 5 17 1 2m 1
2c b 1c 1 14 8 5f4 1s h3h 3 1j wp t hv 8mc 6l8 e8 ls a m z 1 j 1 4 45 2o 3j 7 m49 5 b 2 e 4qg 8
ye 16 9 6w7 4 1 7 1 2 1 83 f 1 t 3 2 1 e 4 8 b0 c20 1 5m 1 5a 1 2 a 2t 3 d 18 4 9 7 2 e 6 4a x c
9 1 1y 1 m c 17 4 5 c h 3 1 3 1z 1 1 1 57 2 1r d 4 1 o i 1 q 2 d 1 2e 2d 1c 1y 6 1 3 3 2 3 4 4 b
2 7 9 6b c 4 1 7v 1b 1 a 1 55 34 d 3 9 7 1a 1 7 8 e 4 9 7 9 zr 1eke 2 1eke"

/-- Invisible characters outside the controls of the first 256 code points. -/
def isInvisible (n : Nat) : Bool :=
  n == 0x70F || (0x180B ≤ n && n ≤ 0x180E) || (0x200B ≤ n && n ≤ 0x200F) ||
    (0x2028 ≤ n && n ≤ 0x202E) || (0x206A ≤ n && n ≤ 0x206F) || n == 0xFEFF ||
    (0xFFF9 ≤ n && n ≤ 0xFFFB) || n == 0xFFFE || n == 0xFFFF

def isNarrow (n : Nat) : Bool :=
  (0x27E6 ≤ n && n ≤ 0x27ED) || n == 0x2985 || n == 0x2986

def charWidth (c : Char) : Nat :=
  let n := c.toNat
  if n < 0x20 then 0
  else if (0x7F ≤ n && n ≤ 0x9F) || n == 0xAD then 0
  else if n < 0x300 then 1
  else if isNarrow n then 1
  else if isInvisible n || combining.contains c then 0
  else if wide.contains c then 2
  else 1

/-- The columns of a cluster: those of its first character that takes any. -/
def clusterWidth (cluster : List Char) : Nat :=
  ((cluster.map charWidth).find? (0 < ·)).getD 0

def charsWidth (cs : List Char) : Nat :=
  (Cluster.clusters cs).foldl (fun columns c => columns + clusterWidth c) 0

def width (t : Text) : Nat :=
  charsWidth (chars t)

def padTo (columns : Nat) (t : Text) : Text :=
  t ++ List.replicate (columns - width t) 0x20

end TreeCheck.Text
