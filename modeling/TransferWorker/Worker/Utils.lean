import Mathlib.Data.List.TakeWhile
import TransferWorker.Worker.Operations

/-! # Helpers: hashing, keys, paths

The hash functions are a parameter (`Hashes`): what the worker relies on is the shape of their
digests. Path functions are those of `posixpath`, on absolute normalized component lists. -/

namespace TransferWorker

open CallTrees

/-! ## Hashes and keys -/

/-- A SHA-256 digest in hexadecimal: 64 lower-case digits. -/
abbrev HexDigest := {s : String // s.toList.length = 64 ∧ s.toList.all isLowerHex = true}

/-- **The hash functions** of `hashlib` and `hmac`. -/
structure Hashes where
  /-- `hashlib.sha256(content).hexdigest()` -/
  sha256 : ByteArray → HexDigest
  /-- `hmac.new(key, message, hashlib.sha256).hexdigest()` -/
  hmacSha256 : ByteArray → ByteArray → HexDigest

/-- A digest matches `[a-f0-9]{64}$`. -/
theorem isHex64_digest (d : HexDigest) : isHex64 d.val.toList = true := by
  obtain ⟨s, hlen, hall⟩ := d
  rw [List.all_eq_true] at hall
  have htake : s.toList.takeWhile isLowerHex = s.toList := List.takeWhile_eq_self_iff.2 hall
  have hdrop : s.toList.dropWhile isLowerHex = [] := List.dropWhile_eq_nil_iff.2 hall
  rw [isHex64, htake, hdrop, hlen]
  rfl

/-- A digest is a checksum. -/
theorem matchSha256_digest (d : HexDigest) : matchSha256 d.val = true := isHex64_digest d

/-- A key made of a digest matches `_IDEMPOTENCY_RE`. -/
theorem matchIdempotency_digest (d : HexDigest) : matchIdempotency ("sha256:" ++ d.val) = true := by
  have hprefix : "sha256:".toList.isPrefixOf ("sha256:" ++ d.val).toList = true := by
    rw [String.toList_append]
    exact List.isPrefixOf_iff_prefix.2 (List.prefix_append _ _)
  have hrest : ("sha256:" ++ d.val).toList.drop 7 = d.val.toList := by
    rw [String.toList_append]
    exact List.drop_left' rfl
  rw [matchIdempotency, hprefix, hrest, isHex64_digest]
  rfl

/-- The message that is authenticated: `{source_path}|{size_bytes}|{checksum_sha256}`. -/
def keyMessage (sourcePath : String) (sizeBytes : Nat) (checksumSha256 : String) : String :=
  sourcePath ++ "|" ++ toString sizeBytes ++ "|" ++ checksumSha256

/-- **`compute_idempotency_key`** -/
def computeIdempotencyKey (H : Hashes) (secret sourcePath : String) (sizeBytes : Nat)
    (checksumSha256 : String) : String :=
  "sha256:" ++
    (H.hmacSha256 secret.toUTF8 (keyMessage sourcePath sizeBytes checksumSha256).toUTF8).val

/-! ## Paths -/

/-- One step of `normpath` on an absolute path: the components so far, the last one first. -/
def normStep (comps : List (List Char)) (comp : List Char) : List (List Char) :=
  if comp = [] ∨ comp = ['.'] then comps
  else if comp = ['.', '.'] then comps.tail
  else comp :: comps

/-- The components of `abspath(path)`, seen from the working directory `cwd`. -/
def absComponents (cwd path : String) : List (List Char) :=
  let comps :=
    if path.toList.head? = some '/' then path.toList.splitOn '/'
    else cwd.toList.splitOn '/' ++ path.toList.splitOn '/'
  (comps.foldl normStep []).reverse

/-- The length of the longest common prefix. -/
def commonPrefix : List (List Char) → List (List Char) → Nat
  | a :: as, b :: bs => if a = b then commonPrefix as bs + 1 else 0
  | _, _ => 0

/-- **`os.path.relpath(path, start)`**, of a path that is not empty. -/
def relpath (cwd path start : String) : String :=
  let startList := absComponents cwd start
  let pathList := absComponents cwd path
  let i := commonPrefix startList pathList
  let relList := List.replicate (startList.length - i) ['.', '.'] ++ pathList.drop i
  if relList = [] then "." else String.ofList (['/'].intercalate relList)

/-- `os.path.basename(path)` -/
def basename (path : String) : String :=
  String.ofList ((path.toList.splitOn '/').getLastD [])

/-- `os.path.splitext(path)[1]`: from the last dot of the base name on, unless only dots stand
before it. -/
def splitext (path : String) : String :=
  let name := (basename path).toList
  let ext := (name.reverse.takeWhile (· ≠ '.')).reverse
  let stem := name.take (name.length - ext.length - 1)
  if name.contains '.' ∧ stem.any (· ≠ '.') then String.ofList ('.' :: ext) else ""

/-- `_CONTENT_TYPES` -/
def contentTypes : List (String × String) :=
  [(".csv", "text/csv"), (".json", "application/json"), (".txt", "text/plain")]

/-- `guess_content_type` -/
def guessContentType (filename : String) : String :=
  (contentTypes.lookup (splitext filename).toLower).getD "application/octet-stream"

end TransferWorker
