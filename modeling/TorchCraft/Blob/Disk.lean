import TorchCraft.Lib.Decimal

/-!
# The disk store

`BlobStorageDisk` keeps a blob in one file, the decimal length directly followed by the bytes, and
moves an older file of the key to the first free of ten backup names.

* `FS`  the files beneath the root of the store; a directory is there if a file is
  beneath it, which is so as long as nothing fails half way;
* `put`, `get`  the two operations with their error texts;
* `encode`, `decode`  the file format (`decode_encode_iff`: what is read back);
* `putAll`  a sequence of puts.

A key is its list of path components, none of them empty, `.` or `..`, so that two keys are two paths.
Creating directories and files, and renaming, fail only where a file stands in the place of a
directory or the other way round.
-/

namespace TorchCraft.BlobStorage
open Lib Decimal List

def kMaxOldVersions : Nat := 10

/-! ## files -/

/-- a path below the root -/
abbrev Path := List String

abbrev FS := List (Path × List UInt8)

namespace FS

variable (fs : FS) (p : Path)

def file : Option (List UInt8) :=
  (fs.find? fun e => decide (e.1 = p)).map Prod.snd

def isdir : Bool := fs.any fun e => decide (p <+: e.1 ∧ e.1 ≠ p)

/-- `fsutils::exists`, of a file or a directory -/
def present : Bool := fs.any fun e => decide (p <+: e.1)

/-- one of the directories on the way to `p`, or `p`, is a file -/
def blocked : Bool := fs.any fun e => decide (e.1 <+: p)

/-- `std::rename`, of a file or a directory with all that is in it -/
def rename (fs : FS) (src dest : Path) : FS :=
  fs.map fun e => if src <+: e.1 then (dest ++ e.1.drop src.length, e.2) else e

def write (content : List UInt8) : FS :=
  (p, content) :: fs.filter fun e => decide (e.1 ≠ p)

end FS

/-! ## the file format -/

/-- a `std::vector<char>`, which is not larger than `max_size()` -/
structure Blob where
  bytes : List UInt8
  fits : bytes.length < 2 ^ 63
  deriving DecidableEq

def encode (data : Blob) : List UInt8 := decimal data.bytes.length ++ data.bytes

def isSpace (b : UInt8) : Bool := b = 32 ∨ (9 ≤ b ∧ b ≤ 13)

/-- the state of a stream after `ifs >> size`: the number, what is left, and whether the stream is
good -/
structure Extracted where
  size : Nat
  rest : List UInt8
  good : Bool

def extracted (digits rest : List UInt8) : Extracted where
  size := min (value digits) (2 ^ 64 - 1)
  rest := rest
  good := decide (digits ≠ [] ∧ value digits < 2 ^ 64 ∧ rest ≠ [])

def extract (content : List UInt8) : Extracted :=
  extracted ((content.dropWhile isSpace).takeWhile isDigit)
    ((content.dropWhile isSpace).dropWhile isDigit)

def readError (size : Nat) (path : String) : String :=
  "Error reading " ++ toString size ++ " bytes from '" ++ path ++ "'"

def readData (path : String) (e : Extracted) : Except String (List UInt8) :=
  if 2 ^ 63 ≤ e.size then .error "cannot create std::vector larger than max_size()"
  else if e.good ∧ e.size ≤ e.rest.length then .ok (e.rest.take e.size)
  else .error (readError e.size path)

def decode (path : String) (content : List UInt8) : Except String (List UInt8) :=
  readData path (extract content)

/-! ## the store -/

structure Key where
  dirs : List String
  name : String
  deriving DecidableEq

namespace Key

def path (k : Key) : Path := k.dirs ++ [k.name ++ ".bin"]

def backupPath (k : Key) (i : Nat) : Path := k.dirs ++ [k.name ++ ".bin" ++ ".old-" ++ toString i]

def toString (k : Key) : String := "/".intercalate (k.dirs ++ [k.name])

def pathString (root : String) (k : Key) : String := root ++ "/" ++ k.toString ++ ".bin"

end Key

def freeBackup (fs : FS) (k : Key) : Option Nat :=
  (List.range kMaxOldVersions).find? fun i => !fs.present (k.backupPath (i + 1))

def backup (fs : FS) (k : Key) : FS :=
  if fs.present k.path then
    match freeBackup fs k with
    | some i => fs.rename k.path (k.backupPath (i + 1))
    | none => fs
  else fs

def put (root : String) (fs : FS) (k : Key) (data : Blob) : Except String FS :=
  if fs.blocked k.dirs then .error "File exists"
  else if (backup fs k).isdir k.path then
    .error ("Error writing " ++ toString data.bytes.length ++ " bytes to '" ++ k.pathString root ++ "'")
  else .ok ((backup fs k).write k.path (encode data))

def get (root : String) (fs : FS) (k : Key) : Except String (List UInt8) :=
  match fs.file k.path with
  | some content => decode (k.pathString root) content
  | none =>
    if fs.isdir k.path then .error (readError 0 (k.pathString root))
    else .error ("No data found for key '" ++ k.toString ++ "' at '" ++ k.pathString root ++ "'")

def putAll (root : String) : FS → List (Key × Blob) → Except String FS
  | fs, [] => .ok fs
  | fs, o :: os =>
    match put root fs o.1 o.2 with
    | .error e => .error e
    | .ok fs => putAll root fs os

/-! ## reading back -/

/-- the bytes can be told from the digits in front of them -/
def Readable (data : Blob) : Prop := ∃ b, data.bytes.head? = some b ∧ isDigit b = false

instance (data : Blob) : Decidable (Readable data) :=
  match h : data.bytes.head? with
  | none => isFalse (by rintro ⟨b, hb, _⟩; rw [h] at hb; cases hb)
  | some b =>
    if hd : isDigit b = false then isTrue ⟨b, h, hd⟩
    else isFalse (by rintro ⟨b', hb, hd'⟩; rw [h] at hb; cases hb; exact hd hd')

lemma isSpace_of_isDigit {b : UInt8} (h : isDigit b) : isSpace b = false := by
  simp only [isDigit, decide_eq_true_eq] at h
  simp only [isSpace, decide_eq_false_iff_not, ← UInt8.toNat_inj, UInt8.le_iff_toNat_le]
  have h32 : (32 : UInt8).toNat = 32 := rfl
  have h13 : (13 : UInt8).toNat = 13 := rfl
  omega

lemma dropWhile_isSpace_encode (data : Blob) : (encode data).dropWhile isSpace = encode data := by
  unfold encode
  obtain ⟨b, bs, hb⟩ := exists_cons_of_ne_nil (decimal_ne_nil data.bytes.length)
  have hd : isDigit b := isDigit_of_mem_decimal (n := data.bytes.length) (by simp [hb])
  rw [hb, cons_append, dropWhile_cons_of_neg (by simp [isSpace_of_isDigit hd])]

lemma extract_encode (data : Blob) : extract (encode data)
    = extracted (decimal data.bytes.length ++ data.bytes.takeWhile isDigit)
        (data.bytes.dropWhile isDigit) := by
  unfold extract
  rw [dropWhile_isSpace_encode, encode, takeWhile_decimal_append, dropWhile_decimal_append]

lemma decode_encode_of_readable (path : String) {data : Blob} (h : Readable data) :
    decode path (encode data) = .ok data.bytes := by
  obtain ⟨b, hb, hd⟩ := h
  obtain ⟨bs, hbs⟩ : ∃ bs, data.bytes = b :: bs := head?_eq_some_iff.mp hb
  have htake : data.bytes.takeWhile isDigit = [] := by
    rw [hbs, takeWhile_cons_of_neg (by simp [hd])]
  have hdrop : data.bytes.dropWhile isDigit = data.bytes := by
    rw [hbs, dropWhile_cons_of_neg (by simp [hd])]
  have hfits := data.fits
  have hne : data.bytes ≠ [] := by simp [hbs]
  have hex : extract (encode data) = ⟨data.bytes.length, data.bytes, true⟩ := by
    rw [extract_encode, htake, hdrop, append_nil, extracted, value_decimal,
      min_eq_left (by omega), decide_eq_true ⟨decimal_ne_nil _, by omega, hne⟩]
  unfold decode readData
  rw [hex, if_neg (by simpa using hfits), if_pos ⟨rfl, le_rfl⟩, take_length]

lemma decode_encode_error (path : String) {data : Blob} (h : ¬ Readable data) :
    ∃ e, decode path (encode data) = .error e := by
  unfold decode readData
  rw [extract_encode, extracted]
  split
  · exact ⟨_, rfl⟩
  · rw [if_neg]
    · exact ⟨_, rfl⟩
    · rintro ⟨hgood, hle⟩
      simp only [decide_eq_true_eq] at hgood hle
      obtain ⟨-, hlt, hrest⟩ := hgood
      cases hb : data.bytes with
      | nil => exact hrest (by simp [hb])
      | cons b bs =>
        have hd : isDigit b := by
          by_contra hd
          exact h ⟨b, by simp [hb], by simpa using hd⟩
        -- the number is at least ten times the length, and fewer bytes are left
        have htake : data.bytes.takeWhile isDigit ≠ [] := by
          rw [hb, takeWhile_cons_of_pos hd]
          exact cons_ne_nil _ _
        have hge := value_append_ge (decimal data.bytes.length) htake
        rw [value_decimal] at hge
        have hlen : (data.bytes.dropWhile isDigit).length ≤ data.bytes.length :=
          (dropWhile_sublist _).length_le
        have hpos : 0 < data.bytes.length := by simp [hb]
        omega

lemma decode_encode_iff (path : String) (data : Blob) :
    decode path (encode data) = .ok data.bytes ↔ Readable data := by
  refine ⟨fun h => ?_, decode_encode_of_readable path⟩
  by_contra hr
  obtain ⟨e, he⟩ := decode_encode_error path hr
  rw [h] at he
  cases he

end TorchCraft.BlobStorage
