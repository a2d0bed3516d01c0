import TreeCheck.Text.Ranges
import TreeCheck.Text.Utf8

/-!
Letter case by the simple, one-to-one mappings. The lower case table is a list of runs: the first
code point, how many letters, the step from one to the next, and the distance to the lower case
letter, raised by `0x20000` so that it is a natural number.
-/

namespace TreeCheck.Text

def lowerRuns : List Nat := numbers "
1t q 1 2t5s 5c n 1 2t5s 60 7 1 2t5s 74 o 2 2t4x 8g 1 1 2szd 8i 3 2 2t4x 8p 8 2 2t4x 96 n 2 2t4x
ag 1 1 2t1j ah 3 2 2t4x ap 1 1 2taq aq 2 2 2t4x au 1 1 2tam av 1 1 2t4x ax 2 1 2tal az 1 1 2t4x
b2 1 1 2t73 b3 1 1 2tai b4 1 1 2taj b5 1 1 2t4x b7 1 1 2tal b8 1 1 2tan ba 1 1 2tar bb 1 1 2tap
bc 1 1 2t4x bg 1 1 2tar bh 1 1 2tat bj 1 1 2tau bk 3 2 2t4x bq 1 1 2tay br 1 1 2t4x bt 1 1 2tay
bw 1 1 2t4x by 1 1 2tay bz 1 1 2t4x c1 2 1 2tax c3 2 2 2t4x c7 1 1 2taz c8 1 1 2t4x cc 1 1 2t4x
ck 1 1 2t4y cl 1 1 2t4x cn 1 1 2t4y co 1 1 2t4x cq 1 1 2t4y cr 9 2 2t4x da 9 2 2t4x dt 1 1 2t4y
du 2 2 2t4x dy 1 1 2t27 dz 1 1 2t3c e0 k 2 2t4x f4 1 1 2t1a f6 9 2 2t4x fu 1 1 31gr fv 1 1 2t4x
fx 1 1 2t0d fy 1 1 31go g1 1 1 2t4x g3 1 1 2szh g4 1 1 2t6t g5 1 1 2t6v g6 5 2 2t4x og 2 2 2t4x
om 1 1 2t4x ov 1 1 2t84 p2 1 1 2t5y p4 3 1 2t5x p8 1 1 2t6o pa 2 1 2t6n pd h 1 2t5s pv 9 1 2t5s
r3 1 1 2t54 rc c 2 2t4x s4 1 1 2t38 s7 1 1 2t4x s9 1 1 2t4p sa 1 1 2t4x sd 3 1 2t1a sg g 1 2t74
sw w 1 2t5s v4 h 2 2t4x wa r 2 2t4x xs 1 1 2t5b xt 7 2 2t4x y8 1c 2 2t4x 10x 12 1 2t68 3a8 12 1
2yqo 3bb 1 1 2yqo 3bh 1 1 2yqo 3vk 28 1 3n4g 3xs 6 1 2t54 5mx 1 1 2t4x 5n4 17 1 2qtc 5od 3 1
2qtc 5xc 23 2 2t4x 61q 1 1 2n9d 61s 1c 2 2t4x 64o 8 1 2t4o 654 6 1 2t4o 65k 8 1 2t4o 660 8 1
2t4o 66g 6 1 2t4o 66x 4 2 2t4o 67c 8 1 2t4o 688 8 1 2t4o 68o 8 1 2t4o 694 8 1 2t4o 69k 2 1 2t4o
69m 2 1 2t2u 69o 1 1 2t4n 6a0 4 1 2t2i 6a4 1 1 2t4n 6ag 2 1 2t4o 6ai 2 1 2t24 6aw 2 1 2t4o 6ay 2
1 2t1s 6b0 1 1 2t4p 6bc 2 1 2t1c 6be 2 1 2t1e 6bg 1 1 2t4n 6jq 1 1 2nc3 6ju 1 1 2mo1 6jv 1 1
2mre 6k2 1 1 2t5o 6lc g 1 2t5c 6mb 1 1 2t4x 792 q 1 2t5m 8ow 1c 1 2t68 8rk 1 1 2t4x 8rm 1 1 2kuh
8rn 1 1 2q6y 8ro 1 1 2kux 8rr 3 2 2t4x 8rx 1 1 2ktg 8ry 1 1 2kub 8rz 1 1 2ktd 8s0 1 1 2kte 8s2 1
1 2t4x 8s5 1 1 2t4x 8se 2 1 2ksh 8sg 1e 2 2t4x 8vf 2 2 2t4x 8vm 1 1 2t4x wu8 n 2 2t4x ww0 e 2
2t4x x0i 7 2 2t4x x0y v 2 2t4x x2x 2 2 2t4x x31 1 1 21vg x32 5 2 2t4x x3f 1 1 2t4x x3h 1 1 1wig
x3k 2 2 2t4x x3q a 2 2t4x x4a 1 1 1who x4b 1 1 1whd x4c 1 1 1whh x4d 1 1 1whr x4e 1 1 1who x4g 1
1 1wj2 x4h 1 1 1wie x4i 1 1 1wiz x4j 1 1 2tuo x4k 8 2 2t4x x50 1 1 2t3k x51 1 1 1whp x52 1 1
21u0 x53 2 2 2t4x x57 1 1 1wgp x58 8 2 2t4x x5o 1 1 1wan x6d 1 1 2t4x 1ee9 q 1 2t5s 1fcw 14 1
2t60 1fhs 10 1 2t60 1fn4 b 1 2t5z 1fng f 1 2t5z 1fnw 7 1 2t5z 1fo4 2 1 2t5z 1h1c 1f 1 2t6o 1h74
m 1 2t5s 1jfk w 1 2t5s 20cg w 1 2t5s 20f4 p 1 2t5n 2olc y 1 2t5u"

/-- The lower case code point by the first run that holds `n`, else `n` itself. -/
def lowerBy : List Nat → Nat → Nat
  | start :: count :: step :: shift :: rest, n =>
    if start ≤ n && (n - start) % step == 0 && (n - start) / step < count then
      n + shift - 0x20000
    else lowerBy rest n
  | _, n => n

def lowerChar (c : Char) : Char :=
  if c.toNat < 0x80 then c.toLower else Char.ofNat (lowerBy lowerRuns c.toNat)

/-- The text with every character in lower case; stray bytes become the replacement character
unless the whole text is ASCII. -/
def lower (t : Text) : Text :=
  if t.all (· < 0x80) then t.map lowerByte else ofChars ((chars t).map lowerChar)

/-- The simple upper case form where it is an ASCII letter, else the character itself. The dotless
i and the long s are the only letters outside ASCII whose upper case is inside. -/
def upperAscii (c : Char) : Char :=
  if c.toNat == 0x131 then 'I' else if c.toNat == 0x17F then 'S' else c.toUpper

/-- The form that decides whether two letters differ only in case, as far as one of them is ASCII:
the long s folds to s and the Kelvin sign to k. -/
def foldAscii (c : Char) : Char :=
  if c.toNat == 0x17F then 's' else if c.toNat == 0x212A then 'k' else c.toLower

def isWord (word : String) (t : Text) : Bool :=
  isUtf8 t && (chars t).map foldAscii == word.toList

end TreeCheck.Text
