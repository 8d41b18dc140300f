import DidMethods.Text.Runs

/-!
# The repertoire of domain names

Which characters outside of ASCII a domain name may be written with, and what is needed to know
about them. A character is *admitted*, does not *count* (`isIgnored`), or is refused. Some admitted
ones are *variants*, such as capitals and wide letters: they may be typed, but they stand for other
characters, so that they do not occur in a name in its final form. What these others are matters
where they are ASCII (`ascii?`) and where the variant is a mark (`restatedMarks`); it is left open
for all the rest. What a character may stand beside is told by its features: the direction it is
written in, whether it is a mark on the character before, and how it joins its neighbours.

The tables say for each property in which runs of characters it holds (`Text.Runs`).
-/

namespace DidMethods.Repertoire

open Text.Runs

/-- The direction a character is written in, and the part it has where directions meet. -/
inductive Direction where
  /-- A letter written from left to right. -/
  | left
  /-- A letter written from right to left. -/
  | right
  /-- A digit as it is written in Arabic. -/
  | arabicNumber
  /-- A digit as it is written in Europe. -/
  | europeanNumber
  /-- A sign such as plus and minus. -/
  | sign
  /-- A character before or after a number, such as that of a currency. -/
  | unit
  /-- A character that separates numbers. -/
  | separator
  /-- A character without a direction. -/
  | neutral
  /-- A character that cannot be seen. -/
  | invisible
  /-- A mark on another character. -/
  | mark
deriving DecidableEq, Repr

/-- How a character joins its neighbours. -/
inductive Joining where
  /-- It joins neither. -/
  | neither
  /-- It joins both. -/
  | both
  /-- It joins the one before. -/
  | before
  /-- It joins the one after. -/
  | after
  /-- It is passed over: its neighbours join as if it were not there. -/
  | passed
deriving DecidableEq, Repr

/-- What is needed to know about an admitted character. -/
structure Features where
  /-- The direction. -/
  direction : Direction
  /-- It is a mark on the character before it. -/
  isMark : Bool := false
  /-- How it joins its neighbours. -/
  joining : Joining := .neither
deriving DecidableEq, Repr

/-! ### Tables -/

/-- Gaps and lengths of the runs of admitted characters. -/
def admittedRuns : List String :=
  ["33 7 1 6 1 4 1 3 1 543 6 154 3 5 6 5 1 1 1 20 1 397 1 38 2 50 2 3 1 55 8 27 4 6 17 22 1 192",
   "1 48 2 59 2 101 14 59 2 49 2 15 1 28 2 1 1 11 5 32 7 75 1 161 1 8 2 2 2 22 1 7 1 1 3 4 2 9",
   "2 2 2 4 8 1 4 2 1 5 2 25 2 3 1 6 4 2 2 22 1 7 1 2 1 2 1 2 2 1 1 5 4 2 2 3 3 1 7 4 1 1 7 17",
   "10 3 1 9 1 3 1 22 1 7 1 2 1 5 2 10 1 3 1 3 2 1 15 4 2 12 7 7 1 3 1 8 2 2 2 22 1 7 1 2 1 5",
   "2 9 2 2 2 3 7 3 4 2 1 5 2 18 10 2 1 6 3 3 1 4 3 2 1 1 1 2 3 2 3 3 3 12 4 5 3 3 1 4 2 1 6 1",
   "14 21 5 13 1 3 1 23 1 16 2 9 1 3 1 4 7 2 1 3 1 2 2 4 2 10 7 22 1 3 1 23 1 10 1 5 2 9 1 3 1 4",
   "7 2 5 3 1 4 2 10 1 3 12 13 1 3 1 51 1 3 1 6 4 16 2 26 1 3 1 18 3 24 1 9 1 1 2 7 3 1 4 6 1 1",
   "1 8 6 10 2 3 12 58 4 29 37 2 1 1 1 5 1 24 1 1 1 23 2 5 1 1 1 7 1 10 2 4 32 72 1 36 4 39 1 36",
   "1 15 1 13 37 198 1 1 5 1 2 377 1 4 2 7 1 1 1 4 2 41 1 4 2 33 1 4 2 7 1 1 1 4 2 15 1 57 1 4",
   "2 67 2 32 3 26 6 86 2 6 2 640 1 28 3 89 7 22 9 24 9 20 12 13 1 3 1 2 12 94 2 10 6 10 6 26",
   "6 89 7 43 5 70 10 31 1 12 4 12 4 1 3 42 2 5 11 44 4 26 6 11 3 62 2 65 1 29 2 11 6 10 6 14",
   "2 46 2 12 20 77 1 166 8 60 3 15 3 62 5 43 2 11 8 43 5 534 2 6 2 38 2 6 2 8 1 1 1 1 1 1 1 31",
   "2 53 1 7 1 1 3 3 1 7 3 4 2 6 4 13 2 1 2 3 1 7 14 3 2 7 1 12 3 1 8 14 1 8 3 21 1 5 5 8 2 27",
   "1 13 3 34 14 33 17 3 2 133 4 666 22 11 21 40 20 1496 1 255 2 382 5 45 1 1 5 1 2 56 7 2 14 24",
   "9 7 1 7 1 7 1 7 1 7 1 7 1 7 1 7 1 126 34 26 1 89 12 214 43 63 1 86 2 2 2 99 5 43 1 94 1 86",
   "10 47 1 418 1 4 1 16 1 28852 3 55 9 348 20 184 8 221 20 60 3 10 6 56 8 70 8 12 6 116 11 30",
   "3 78 1 11 4 33 1 55 9 14 2 10 2 103 24 28 10 6 2 6 2 6 9 7 1 7 1 60 4 126 2 10 6 11172 12 23",
   "4 49 8452 366 2 106 38 7 12 5 5 26 1 5 1 1 1 2 1 2 1 280 6 364 32 10 2 22 2 2 1 2 7 16 1 22",
   "6 5 2 1 2 8 1 4 2 1 2 1 7 1 1 1 3 1 1 1 1 1 1 1 1 126 2 1 1 2 1 1 1 9 1 10 1 1 1 1 3 26 4 29",
   "1 98 3 6 2 6 2 6 2 3 3 3 1 3 1 7 17 12 1 26 1 19 1 2 1 15 2 14 34 123 5 3 4 45 3 88 1 13 3 1",
   "47 46 130 29 3 49 15 28 4 36 9 30 5 43 5 30 1 37 4 14 42 158 2 10 6 36 4 36 4 40 8 52 11 12",
   "1 15 1 7 1 2 1 11 1 15 1 7 1 2 3 52 12 311 9 22 10 8 24 6 1 42 1 9 69 6 2 1 1 44 1 2 3 1",
   "2 23 1 72 8 9 48 19 1 2 5 33 3 27 5 27 38 56 4 20 2 50 1 2 5 8 1 3 1 29 2 3 4 10 7 9 7 64",
   "32 39 4 12 9 54 3 29 2 27 5 26 7 4 12 7 80 73 55 51 13 51 7 46 8 10 6 38 3 29 8 2 208 31",
   "1 42 1 3 2 2 16 6 8 9 33 46 8 42 22 26 38 28 20 23 9 78 4 36 9 62 1 5 13 25 7 10 6 53 1 18",
   "8 39 9 96 1 20 11 18 1 47 62 7 1 1 1 4 1 15 1 11 6 59 5 10 6 4 1 8 2 2 2 22 1 7 1 2 1 5 1 10",
   "2 2 2 3 2 1 6 1 5 7 2 7 3 5 11 10 1 1 2 1 1 38 1 10 1 1 2 1 1 4 1 10 1 2 8 2 29 92 1 5 30 72",
   "8 10 166 54 2 38 34 69 11 10 6 13 19 58 6 10 6 20 28 27 2 15 4 23 185 60 100 83 12 8 2 1 2 8",
   "1 2 1 30 1 2 2 12 9 10 70 8 2 46 2 11 27 72 8 83 13 73 7 10 86 8 88 34 14 10 6 9 1 45 1 14",
   "10 29 3 32 2 22 1 14 73 7 1 2 1 44 3 1 1 2 1 9 8 10 6 6 1 2 1 37 1 2 1 6 7 10 6 44 4 10",
   "246 25 7 17 1 41 3 29 85 1 15 50 13 923 102 111 1 5 11 196 2636 99 13 1072 16 22 10 3995",
   "5 583 6841 58 1734 569 7 31 1 10 4 81 1 10 6 30 2 6 10 70 10 10 1 7 1 21 5 19 432 58 198 91",
   "5 25 2 25 44 75 4 57 7 17 64 5 11 7 9 7382 41 32 97 115 8701 4 1 7 1 2 1 291 15 1 29 3 2 1",
   "14 4 8 396 2308 107 5 13 3 9 7 10 2 8 3932 253 3 436 6 23 15 17 15 46 2 23 9 116 60 246",
   "10 39 2 194 21 70 122 20 12 20 12 87 9 25 135 85 1 71 1 2 2 1 2 2 2 4 1 12 1 1 1 7 1 65 1 4",
   "2 8 1 7 1 28 1 4 1 5 1 1 3 7 1 340 2 292 2 702 15 5 1 15 1104 31 6 6 213 7 1 17 2 7 1 2 1 5",
   "5 62 33 1 112 45 3 14 2 10 4 2 320 31 17 58 5 1 464 42 214 43 4 1 192 31 1 22 8 2 224 7 1 4",
   "1 2 1 15 1 197 2 16 41 76 4 10 4 2 785 68 76 61 194 4 1 27 1 2 1 1 2 1 1 10 1 4 1 1 1 1 6 1",
   "4 1 1 1 1 1 1 3 1 2 1 1 2 1 1 1 1 1 1 1 1 1 1 2 1 1 2 4 1 7 1 4 1 4 1 1 1 10 1 17 5 3 1 5",
   "1 17 52 2 270 44 4 100 12 15 2 15 1 15 1 37 11 173 56 29 13 44 4 9 7 2 14 6 154 985 3 17",
   "3 13 3 218 6 12 4 1 15 12 4 56 8 10 6 40 8 30 2 12 4 2 14 9 39 344 8 14 2 13 3 11 3 57 1 1",
   "4 16 2 12 4 10 7 147 1 103 1029 42720 32 4382 2 5774 2 7473 15 622 2466 542 1506 4939 5 8490",
   "707718 240"]

/-- Gaps and lengths of the runs of characters that do not count. -/
def ignoredRuns : List String :=
  ["45 1 673 1 3599 2 1619 2 85 5 2043 1 84 5 5 6 4340 1 52379 16 239 1 160 1 48383 4 5327 8",
   "798597 240"]

/-- Gaps and lengths of the runs of characters that stand for others. -/
def variantRuns : List String :=
  ["42 1 7 2 1 1 3 2 1 3 1 23 1 7 84 2 1 1 9 2 72 2 2 4 1 2 1 3 3 2 1 2 17 2 4 1 3 1 7 10 35 4",
   "1 3 65 2 1 2 5 3 105 9 39 5 91 2 1 3 56 2 6 5 7 16 1 9 35 8 26 2 1 2 4 1 2 51 257 38 48 1",
   "237 4 735 8 124 2 1 1 83 1 2 1 34 3 2 1 253 2 725 1 127 1 40 2 46 1 54 1 9 1 4 1 4 1 4 1",
   "12 1 12 4 7 1 17 1 9 1 4 1 4 1 4 1 12 1 230 38 1 1 5 1 46 1 763 6 2178 10 6 43 2 3 108 3",
   "1 11 1 18 1 28 13 1 34 37 218 2 108 8 8 6 10 8 8 8 8 6 26 8 16 48 2 3 2 6 1 1 3 3 2 6 6 1",
   "4 4 7 1 4 5 2 1 2 3 2 6 20 1 33 2 1 2 4 1 26 1 24 2 2 27 1 13 11 1 89 2 6 10 1 2 2 5 2 3 8 3",
   "1 11 1 6 4 5 6 48 3 1 5 1 162 2 1 2 248 2 309 40 20 79 1313 1 104 2 101 1 291 48 51 2 9 3",
   "1 1 2 1 6 5 113 1 124 1 303 1 83 1 12 214 44 1 54 2 100 1 95 1 49 51 1 42 3 14 96 31 1 40",
   "8 47 1 322 1 4 1 16 1 39 29341 1 269 4 1 5 16 3 41 5 2 2 866 4 9 1 6 80 19776 270 7 10 6 2",
   "3 68 2 106 38 7 12 5 8 23 1 5 10 107 33 139 6 218 18 64 2 54 40 10 2 1 19 2 2 2 1 2 24 20",
   "8 5 2 1 2 8 1 4 2 1 2 1 7 1 14 125 4 2 4 8 1 10 7 26 4 29 1 67 1 30 3 6 2 6 2 6 2 3 3 3 1 3",
   "1 7 1041 40 136 36 156 11 1 15 1 7 1 2 491 5 1 42 1 9 1221 51 157 22 2874 32 21888 32 64 25",
   "24093 36 1124 7 86 6 575 85 1 71 1 2 2 1 2 2 2 4 1 12 4 6 1 65 1 4 2 8 1 7 1 28 1 4 1 5 1 1",
   "3 7 1 340 2 292 2 50 2096 62 2194 34 1246 4 1 27 1 2 1 1 5 9 1 4 10 1 11 2 1 2 1 1 18 4 1 7",
   "1 4 1 4 4 9 1 17 5 3 1 5 1 17 581 10 5 31 1 32 26 3 35 1 111 3 13 44 4 9 7 2 2462 10",
   "64518 542"]

/-- Gaps and lengths of the runs in which every other character stands for its successor. -/
def variantSteps : List String :=
  ["128 26 6 4 3 4 0 24 0 5 0 3 0 2 24 3 0 2 2 2 0 2 3 2 23 7 2 9 11 29 14 2 4 4 289 4 21 2 0 2",
   "70 13 6 2 102 17 9 28 0 7 2 48 2628 2 3722 75 9 49 90 4 17 7 393 2 26 4 2869 2 4 4 20 49 8 2",
   "840 2 30215 23 19 15 133 7 3 32 8 3 0 5 4 2 2 2 3 11 11 8 4 2 0 9 21043 2 13 2 250 2 30 2",
   "0 2 0 2 816 5 132 2 20 2 54685 2 6505 2 15 2 11 4 9 6 0 2 25 2"]

/-- Lengths and features of the runs of characters that are alike in their features. -/
def featureRuns : List String :=
  ["34n 4t 10n 5t 1l 10n 23l 1n 31l 1n 449l 2n 7l 14n 2l 14n 5l 9n 1l 17n 69m 1l 42m 4l 2n 17l",
   "1n 110l 1n 140l 7m 256l 5n 2t 45m 1r 1m 1r 2m 1r 2m 1r 9m 54r 2n 1r 2t 1r 1c 1r 2n 11m 5r 1d",
   "1r 4j 1d 1j 1d 1j 5d 4j 13d 1r 7d 1j 2d 21m 10a 1t 2a 1r 2d 1m 3j 1r 3j 16d 18j 38d 1j 2d 9j",
   "1d 1j 1d 1j 2d 2j 1r 1j 8m 1n 6m 2r 2m 1n 4m 2j 10e 3d 2r 1d 16r 1j 1m 3d 5j 4d 1j 9d 1j 1d",
   "1j 1d 1j 2d 1j 29m 1j 11d 3j 15d 2j 4d 1j 1d 2j 3d 2j 6d 38r 11m 25r 33d 9m 2r 4n 3r 1m 24r",
   "4m 1r 9m 1r 3m 1r 7m 16r 1j 5d 2j 1d 1j 10d 1j 1d 3j 5m 2r 1d 1r 4d 1r 1j 1d 26j 3r 1d 2r 5d",
   "1j 8d 9m 10d 3j 1r 1j 2d 2j 6d 1j 15d 1r 57m 1s 54l 1m 1s 1m 1l 3s 8m 4s 1m 2s 1l 7m 10l 2m",
   "29l 1m 3s 55l 1m 1l 3s 6m 6s 1m 9l 5s 6l 4m 12l 2t 7l 1t 2l 5m 2s 55l 2m 3s 24m 23l 2m 3l 1m",
   "11l 2m 2s 55l 1m 1l 3s 8m 4s 3m 18l 4m 11l 8t 1l 8m 3s 55l 1m 1l 1s 1m 1s 6m 6s 10m 5s 6l 4m",
   "28l 1m 59l 2s 1m 12s 3m 7l 15s 13l 6n 1t 6n 1m 3s 1m 55l 1m 1l 3m 5s 18m 10l 4m 18l 7n 2l 1m",
   "2s 56l 1m 1l 1s 1v 6s 1v 5s 9m 7s 6l 4m 26l 2m 2s 55l 2m 1l 3s 5m 7s 1m 9l 1s 10l 4m 27l 1m",
   "3s 69l 5m 3s 6m 14s 12l 2s 61l 1m 1l 12m 1t 7l 8m 98l 1m 1l 10m 11l 8m 72l 2m 27l 1m 1l 1m",
   "1l 1m 4n 2s 49l 14m 1s 5m 1l 2m 5l 49m 8l 1m 100l 2s 4m 1s 6m 1s 2m 2s 2m 23l 2s 2m 4l 3m 1l",
   "3s 2l 7s 3l 4m 13l 1m 2s 2m 6s 1m 1l 1s 10l 3s 1m 703l 3m 48l 16n 96l 1n 666l 5n 114l 3m 10s",
   "19l 2m 1s 29l 14m 18l 14m 54l 1s 7m 8s 1m 2s 11m 7l 1t 1l 3m 16l 23n 1h 8n 16l 96g 5l 2m 34g",
   "1m 6g 112l 3m 4s 2m 9s 1m 6s 7m 6n 152l 34n 23l 2m 2s 3m 55l 1s 1m 1s 9m 1s 1m 2s 8m 6s 13m",
   "48l 84m 1s 47l 1m 1s 5m 1s 1m 5s 1m 2s 38l 9m 12l 2m 1s 30l 1s 4m 2s 2m 1s 3m 56l 1m 1s 2m",
   "3s 1m 1s 3m 10s 40l 8s 8m 2s 5m 149l 3m 1l 13m 1s 7m 4l 1m 6l 1m 2l 1s 2m 198l 64m 524l 4b",
   "32n 5t 15n 1c 18n 1t 35n 25p 12l 33t 15l 51m 1t 3n 1l 1n 6t 5l 18n 1l 4n 3l 4t 3l 5r 2n 4l",
   "14n 60l 136n 1p 1t 290n 69l 26n 1l 145n 25l 620n 1l 339n 256l 662n 1l 105n 229l 6n 4l 3m 7l",
   "7n 127l 1m 96l 32m 159n 1l 83n 270l 4n 3l 25n 9l 4m 2s 1n 5l 2n 5l 4n 88l 4m 3l 1n 90l 1n",
   "196l 36n 7132l 64n 22160l 64n 317l 3n 95l 4m 1n 10m 2n 30l 2m 80l 2m 14l 34n 102l 1n 121l 1m",
   "3l 1m 4l 1m 23l 2s 2m 1s 4n 4m 8l 8t 50g 1i 1l 12n 2s 50l 16s 10m 18l 18m 13l 1m 38l 8m 25l",
   "11m 13s 33l 3m 1s 47l 1m 2s 4m 2s 2m 3s 36l 1m 67l 6m 2s 2m 2s 11m 3l 1m 8l 1m 3s 43l 1s 1m",
   "1s 50l 1m 1l 3m 2l 2m 5l 2m 1l 1m 41l 1s 2m 2s 5l 1s 11m 105l 6n 115l 2s 1m 2s 1m 2s 1l 1s",
   "3m 20269l 1r 1m 49r 2j 48d 12j 22d 2j 8d 4j 33r 4d 13j 119d 2j 223d 2j 18n 64d 2r 54d 7r 33n",
   "2d 2j 2d 1j 1d 1j 3d 1j 35n 17m 64n 2d 4r 9d 1r 8j 4d 2j 4d 2j 20d 8j 60d 2j 112d 7n 56l 3m",
   "63l 2t 3n 3t 24n 257l 1n 62l 77n 3l 64n 45l 131m 96l 1m 31e 118l 10m 1152l 287r 1n 225r 15m",
   "40r 8m 128r 5d 1j 1r 1j 1r 2j 2r 1k 5j 4d 1k 5d 1j 3d 1j 2r 1j 6m 4d 1j 73r 7n 64r 1d 1j 1d",
   "3j 3d 1j 2d 1j 1d 2j 1d 8j 16r 4j 2d 337r 1k 33d 1j 1d 12m 16a 41r 5m 242r 32a 43r 2m 21r 1j",
   "2d 1r 10d 42r 6m 48r 3d 1j 17d 1r 11m 3d 1j 27r 4d 2j 12d 4m 42r 1d 1r 2d 3j 1r 1d 2j 2d 1j",
   "2d 1r 1d 2j 1d 4r 1j 1d 21k 32r 1s 1m 1s 53l 15m 11l 20n 10l 1m 2l 2m 10l 3m 1s 45l 3s 4m 2s",
   "2m 7l 14m 48l 3m 36l 5m 1s 9m 15l 2s 44l 1m 12l 2m 1s 48l 3s 9m 2s 8l 4m 1l 1s 1m 92l 3s 3m",
   "2s 1m 1s 2m 6l 1m 2l 63m 95l 1m 3s 13m 16l 2m 3s 54l 2m 1l 2s 1m 15s 7l 6s 5l 4s 26m 59l 7m",
   "12l 1m 1l 1m 1l 1m 14l 31m 53l 3s 8m 2s 3m 1s 1m 23l 1m 81l 3s 6m 1s 1m 4s 2m 1s 2m 235l 3s",
   "6m 4s 2m 1s 2m 27l 36m 48l 3s 8m 2s 1m 1s 2m 31l 32n 43l 1m 1s 1m 2s 6m 1s 1m 101l 1m 1u 1m",
   "2s 4m 1s 9m 252l 3s 9m 1s 2m 245l 11s 2m 1s 1m 1l 1s 1l 1s 1m 141l 3s 8m 4s 1m 3l 28s 1l 6m",
   "2v 2m 40l 6m 1s 1l 4m 8l 9m 1l 6m 2s 3m 46l 13m 1s 2m 198l 1m 1l 3m 1l 1m 200l 1s 14m 1s 1v",
   "82l 23m 1s 7m 1s 2m 1s 75m 49l 21m 1l 9m 58l 6s 3m 2s 1m 1s 1m 347l 2m 2s 9l 2m 52l 8m 2l 1m",
   "1l 1m 23l 86m 37l 8n 4t 30n 5185l 1m 6l 25m 11454l 12m 3l 3m 2496l 5m 59l 7m 1048l 1m 1l 62s",
   "4m 79l 1n 1l 12m 2s 19627l 2m 4705l 80m 533l 2s 3m 3l 14s 8m 2l 7m 30l 4m 59l 89n 3m 123n",
   "64l 96n 865l 1n 25l 1n 31l 1n 25l 1n 31l 1n 25l 1n 31l 1n 25l 1n 31l 1n 25l 1n 572l 55m 4l",
   "50m 8l 1m 14l 1m 22l 1125m 256l 48m 95l 113m 48l 7m 375l 18m 44l 4m 15l 465t 28l 4m 254l 2m",
   "243l 1m 2l 1m 7l 2m 5l 9m 258l 208r 48m 68d 7m 5x 1200r 1j 2d 4j 12d 1j 4d 1j 103d 1j 2d 1j",
   "1d 2j 12d 1j 4d 1j 10d 4j 12d 1j 4d 1j 55d 608n 29l 3n 61l 57n 90l 16n 16l 1144n 5l 151n 12l",
   "89n 7l 210n 78l 340n 12l 21n 3l 15n 9l 29n 3l 11n 5l 6n 10l 10n 6l 8n 8l 7n 9l 203n 984117l"]

/-- Gaps and lengths of the runs of viramas. -/
def viramaRuns : List String :=
  ["2253 1 127 1 127 1 127 1 127 1 127 1 127 1 127 1 109 2 16 1 124 1 111 1 127 1 201 1 180 2",
   "1753 2 30 1 157 1 653 1 227 1 101 2 70 2 4491 1 31366 1 37 1 151 1 142 1 108 1 309 1 246 1",
   "24145 1 1542 1 41 1 14 1 57 1 121 2 139 1 116 1 180 1 98 1 244 1 127 1 252 1 127 1 118 1",
   "116 1 269 1 259 2 161 1 83 1 18 1 81 1 421 1 260 2 81 1"]

/-- Gaps and lengths of the runs of characters that stand for a run of ASCII characters, and the
code of the first one of these. -/
def asciiRuns : List String :=
  ["42 1 97 7 2 50 5 1 49 0 1 111 196 1 115 304 1 104 1 1 106 0 1 114 3 1 119 0 1 121 40 1 108",
   "0 1 115 0 1 120 154 1 59 6573 1 97 1 1 98 1 2 100 1 8 103 1 1 111 1 1 112 0 1 114 0 2 116",
   "0 1 119 0 1 97 3 1 98 0 2 100 3 1 103 1 1 107 0 1 109 1 1 111 3 1 112 0 2 116 2 1 118",
   "6 1 105 0 1 114 0 2 117 54 1 99 3 1 102 26 1 122 563 1 96 128 1 48 0 1 105 2 6 52 0 1 43",
   "1 1 61 0 2 40 0 1 110 0 10 48 0 1 43 1 1 61 0 2 40 1 1 97 0 1 101 0 1 111 0 1 120 1 1 104",
   "0 4 107 0 1 112 0 2 115 101 1 99 7 2 103 0 1 104 0 1 104 0 1 104 1 1 105 0 1 105 0 1 108",
   "0 1 108 1 1 110 3 3 112 0 1 114 0 1 114 6 1 122 3 1 122 1 1 107 1 2 98 1 1 101 0 2 101",
   "1 1 109 0 1 111 4 1 105 11 1 100 0 2 100 0 2 105 22 1 105 3 1 118 4 1 120 2 1 108 0 2 99",
   "0 1 109 0 1 105 3 1 118 4 1 120 2 1 108 0 2 99 0 1 109 736 9 49 77 26 97 0 26 97 0 1 48",
   "1937 1 106 0 1 118 900 1 46 30702 1 115 0 1 99 0 1 102 0 1 113 21300 1 43 742 1 44 3 1 59",
   "0 1 33 29 1 95 0 1 95 0 2 40 0 1 123 0 1 125 20 1 95 0 1 95 0 1 95 0 1 44 3 1 59 2 1 33",
   "1 2 40 0 1 123 0 1 125 3 1 38 0 2 42 0 1 45 2 1 61 2 1 36 151 2 33 1 1 36 1 9 38 1 10 48",
   "1 1 59 1 1 61 3 26 97 4 29 95 1 2 125 2 1 46 2115 1 113 50480 26 97 0 10 48 1798 26 97",
   "0 26 97 0 26 97 0 7 97 1 18 105 0 26 97 0 26 97 0 1 97 1 2 99 2 1 103 2 2 106 2 4 110",
   "1 8 115 0 4 97 1 1 102 1 7 104 1 11 112 0 26 97 0 26 97 0 2 97 1 4 100 2 8 106 1 7 115",
   "1 26 97 0 2 97 1 4 100 1 5 105 1 1 111 3 7 115 1 26 97 0 26 97 0 26 97 0 26 97 0 26 97",
   "0 26 97 0 26 97 0 26 97 0 26 97 0 26 97 0 26 97 0 26 97 0 26 97 298 10 48 0 10 48 0 10 48",
   "0 10 48 0 10 48 6443 1 99 0 1 114 3 26 97 2726 10 48"]

/-- Gaps before the characters that stand for an ASCII word, and the words. -/
def asciiWords : List String :=
  ["178 ij 0 ij 147 lj 0 lj 0 lj 0 nj 0 nj 0 nj 36 dz 0 dz 0 dz 7752 !! 107 rs 109 no 9 sm 0 tel",
   "0 tm 24 fax 37 ii 0 iii 0 iv 1 vi 0 vii 0 viii 0 ix 1 xi 0 xii 5 ii 0 iii 0 iv 1 vi 0 vii",
   "0 viii 0 ix 1 xi 0 xii 749 10 0 11 0 12 0 13 0 14 0 15 0 16 0 17 0 18 0 19 0 20 0 (1) 0 (2)",
   "0 (3) 0 (4) 0 (5) 0 (6) 0 (7) 0 (8) 0 (9) 0 (10) 0 (11) 0 (12) 0 (13) 0 (14) 0 (15) 0 (16)",
   "0 (17) 0 (18) 0 (19) 0 (20) 20 (a) 0 (b) 0 (c) 0 (d) 0 (e) 0 (f) 0 (g) 0 (h) 0 (i) 0 (j)",
   "0 (k) 0 (l) 0 (m) 0 (n) 0 (o) 0 (p) 0 (q) 0 (r) 0 (s) 0 (t) 0 (u) 0 (v) 0 (w) 0 (x) 0 (y)",
   "0 (z) 1471 == 0 === 2009 pte 0 21 0 22 0 23 0 24 0 25 0 26 0 27 0 28 0 29 0 30 0 31 0 32",
   "0 33 0 34 0 35 81 36 0 37 0 38 0 39 0 40 0 41 0 42 0 43 0 44 0 45 0 46 0 47 0 48 0 49 0 50",
   "12 hg 0 erg 0 ev 0 ltd 161 hpa 0 da 0 au 0 bar 0 ov 0 pc 0 dm 0 dm2 0 dm3 0 iu 5 pa 0 na",
   "1 ma 0 ka 0 kb 0 mb 0 gb 0 cal 0 kcal 0 pf 0 nf 2 mg 0 kg 0 hz 0 khz 0 mhz 0 ghz 0 thz 1 ml",
   "0 dl 0 kl 0 fm 0 nm 1 mm 0 cm 0 km 0 mm2 0 cm2 0 m2 0 km2 0 mm3 0 cm3 0 m3 0 km3 2 pa 0 kpa",
   "0 mpa 0 gpa 0 rad 2 ps 0 ns 1 ms 0 pv 0 nv 1 mv 0 kv 0 mv 0 pw 0 nw 1 mw 0 kw 0 mw 3 bq 0 cc",
   "0 cd 2 db 0 gy 0 ha 0 hp 0 in 0 kk 0 km 0 kt 0 lm 0 ln 0 log 0 lx 0 mb 0 mil 0 mol 0 ph",
   "1 ppm 0 pr 0 sr 0 sv 0 wb 33 gal 50944 ff 0 fi 0 fl 0 ffi 0 ffl 0 st 0 st 62970 0, 0 1, 0 2,",
   "0 3, 0 4, 0 5, 0 6, 0 7, 0 8, 0 9, 5 (a) 0 (b) 0 (c) 0 (d) 0 (e) 0 (f) 0 (g) 0 (h) 0 (i)",
   "0 (j) 0 (k) 0 (l) 0 (m) 0 (n) 0 (o) 0 (p) 0 (q) 0 (r) 0 (s) 0 (t) 0 (u) 0 (v) 0 (w) 0 (x)",
   "0 (y) 0 (z) 3 cd 0 wz 27 hv 0 mv 0 sd 0 ss 0 ppv 0 wc 26 mc 0 md 0 mr 35 dj"]

/-! ### Reading the tables -/

/-- The runs of admitted characters. -/
def admitted : List (Nat × Nat) := ranges admittedRuns

/-- The runs of characters that do not count. -/
def ignored : List (Nat × Nat) := ranges ignoredRuns

/-- The runs of characters that stand for others. -/
def variants : List (Nat × Nat) := ranges variantRuns

/-- The runs in which every other character stands for its successor. -/
def alternating : List (Nat × Nat) := runs 2 128 (words variantSteps)

/-- The runs of viramas. -/
def viramas : List (Nat × Nat) := ranges viramaRuns

/-- A character may be written in a name. -/
def isAdmitted (c : Char) : Bool :=
  isIn admitted c

/-- A character may be written in a name but does not count. -/
def isIgnored (c : Char) : Bool :=
  isIn ignored c

/-- A character stands for others. -/
def isVariant (c : Char) : Bool :=
  isIn variants c || alternating.any fun r =>
    r.1 ≤ c.toNat && c.toNat < r.1 + 2 * r.2 && (c.toNat - r.1) % 2 == 0

/-- A sign that a consonant has no vowel. -/
def isVirama (c : Char) : Bool :=
  isIn viramas c

/-- The characters that stand for a word, and the words. -/
def spelled (start : Nat) : List (List Char) → List (Nat × List Char)
  | gap :: word :: rest =>
    let first := start + number gap
    (first, word) :: spelled (first + 1) rest
  | _ => []

/-- The runs of characters that stand for ASCII characters, and the first of these for each. -/
def asciiEquivalents : List (Nat × Nat × Nat) := valued 128 (words asciiRuns)

/-- The characters that stand for ASCII words. -/
def asciiSpelled : List (Nat × List Char) := spelled 128 (words asciiWords)

/-- The ASCII characters that a character stands for, if it stands for such. -/
def ascii? (c : Char) : Option (List Char) :=
  let n := c.toNat
  match asciiEquivalents.find? fun r => r.1 ≤ n && n < r.1 + r.2.1 with
  | some (first, _, target) => some [Char.ofNat (target + (n - first))]
  | none => asciiSpelled.lookup n

/-- The marks that stand for other marks or for a letter. -/
def restatedMarks : List (Char × List Char) :=
  [('\u0340', ['\u0300']), ('\u0341', ['\u0301']), ('\u0343', ['\u0313']),
    ('\u0344', ['\u0308', '\u0301']), ('\u0345', ['\u03b9']), ('\u0f73', ['\u0f71', '\u0f72']),
    ('\u0f75', ['\u0f71', '\u0f74']), ('\u0f81', ['\u0f71', '\u0f80']), ('\uff9e', ['\u3099']),
    ('\uff9f', ['\u309a'])]

/-- The features that a letter in the table means. -/
def Features.ofLetter : Char → Features
  | 'm' => ⟨.mark, true, .passed⟩
  | 's' => ⟨.left, true, .neither⟩
  | 'v' => ⟨.left, true, .passed⟩
  | 'u' => ⟨.mark, true, .neither⟩
  | 'n' => ⟨.neutral, false, .neither⟩
  | 'h' => ⟨.neutral, false, .both⟩
  | 'd' => ⟨.right, false, .both⟩
  | 'j' => ⟨.right, false, .before⟩
  | 'k' => ⟨.right, false, .after⟩
  | 'x' => ⟨.right, false, .passed⟩
  | 'r' => ⟨.right, false, .neither⟩
  | 'g' => ⟨.left, false, .both⟩
  | 'i' => ⟨.left, false, .after⟩
  | 't' => ⟨.unit, false, .neither⟩
  | 'a' => ⟨.arabicNumber, false, .neither⟩
  | 'e' => ⟨.europeanNumber, false, .neither⟩
  | 'c' => ⟨.separator, false, .neither⟩
  | 'p' => ⟨.sign, false, .neither⟩
  | 'b' => ⟨.invisible, false, .neither⟩
  | _ => ⟨.left, false, .neither⟩

/-- The features of the character that is so many characters into the table. -/
def featuresAt (index : Nat) : List (List Char) → Features
  | [] => Features.ofLetter 'l'
  | run :: rest =>
    let size := number run.dropLast
    if index < size then Features.ofLetter (run.getLast?.getD 'l')
    else featuresAt (index - size) rest

/-- The words of the table of features. -/
def featureWords : List (List Char) := words featureRuns

/-- The features of an ASCII character. -/
def asciiFeatures (c : Char) : Features :=
  if c.isAlpha then { direction := .left }
  else if c.isDigit then { direction := .europeanNumber }
  else if c = '+' ∨ c = '-' then { direction := .sign }
  else if c = '$' then { direction := .unit }
  else if c = ',' then { direction := .separator }
  else { direction := .neutral }

/-- The features of a character. -/
def features (c : Char) : Features :=
  if c.toNat < 128 then asciiFeatures c else featuresAt (c.toNat - 128) featureWords

end DidMethods.Repertoire
