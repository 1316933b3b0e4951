import Mathlib.Data.Set.Function
import TransferWorker.Worker.Building
import TransferWorker.Worker.Hashlib

/-! # Idempotency keys

A key authenticates the path, the size and the checksum of a file, joined with bars. A path may contain
bars, digits and hexadecimal text, so the message is read from its end: neither a checksum nor a number
contains a bar.

* **`Fingerprint`** — what a key is computed from.
* **`Fingerprint.message_injective`** — the message determines it.
* **`keys_never_conflate`** — keys distinguish all files whose messages the authentication
  distinguishes, and equal keys of built events mean equal files. -/

namespace TransferWorker

open CallTrees

/-- A text that ends in a separator and a part without the separator determines both. -/
theorem append_cons_inj {α : Type} {sep : α} {as bs cs ds : List α} (hb : sep ∉ bs) (hd : sep ∉ ds)
    (h : as ++ sep :: bs = cs ++ sep :: ds) : as = cs ∧ bs = ds := by
  rw [List.append_eq_append_iff] at h
  -- one of the two first parts begins with the other one
  obtain ⟨rest, hcs, hrest⟩ | ⟨rest, has, hrest⟩ := h
  · cases rest with
    | nil => exact ⟨by simpa using hcs.symm, by simpa using hrest⟩
    | cons c rest =>
        have htail : bs = rest ++ sep :: ds := (List.cons.inj hrest).2
        exact absurd (htail ▸ List.mem_append_right rest List.mem_cons_self) hb
  · cases rest with
    | nil => exact ⟨by simpa using has, by simpa using hrest.symm⟩
    | cons c rest =>
        have htail : ds = rest ++ sep :: bs := (List.cons.inj hrest).2
        exact absurd (htail ▸ List.mem_append_right rest List.mem_cons_self) hd

/-- The decimal digits of a number determine it. -/
theorem toString_nat_injective : Function.Injective (fun n : Nat => toString n) := by
  intro m n h
  have hdigits : Nat.toDigits 10 m = Nat.toDigits 10 n := by
    have hlist := congrArg String.toList h
    simpa [Nat.repr] using hlist
  rw [← Nat.ofDigitChars_ten_toDigits (n := m), hdigits, Nat.ofDigitChars_ten_toDigits]

/-- There is nothing but digits among them. -/
theorem notMem_toString {c : Char} (hc : c.isDigit = false) (n : Nat) : c ∉ (toString n).toList := by
  intro h
  have hmem : c ∈ Nat.toDigits 10 n := by simpa [Nat.repr] using h
  have hdigit : c.isDigit = true := Nat.isDigit_of_mem_toDigits (by decide) (by decide) hmem
  rw [hc] at hdigit
  cases hdigit

/-- There is no bar in a digest. -/
theorem bar_notMem_digest (d : HexDigest) : '|' ∉ d.val.toList := by
  intro h
  have hhex : isLowerHex '|' = true := List.all_eq_true.1 d.property.2 _ h
  exact absurd hhex (by decide)

/-- **What a key is computed from**: a path, a size and a SHA-256 checksum. -/
structure Fingerprint where
  /-- The path, any text. -/
  sourcePath : String
  /-- The size. -/
  sizeBytes : Nat
  /-- The checksum, 64 lower-case hexadecimal digits. -/
  checksumSha256 : HexDigest

namespace Fingerprint

/-- The bytes that are authenticated. -/
def message (f : Fingerprint) : ByteArray :=
  (keyMessage f.sourcePath f.sizeBytes f.checksumSha256).toUTF8

/-- The key. -/
def key (H : Hashes) (secret : String) (f : Fingerprint) : String :=
  computeIdempotencyKey H secret f.sourcePath f.sizeBytes f.checksumSha256

/-- **The message determines the path, the size and the checksum.** -/
theorem message_injective : Function.Injective message := by
  rintro ⟨path, size, checksum⟩ ⟨path', size', checksum'⟩ h
  have htext : keyMessage path size checksum = keyMessage path' size' checksum' :=
    String.toByteArray_inj.1 h
  have hchars : (path.toList ++ '|' :: (toString size).toList) ++ '|' :: checksum.val.toList =
      (path'.toList ++ '|' :: (toString size').toList) ++ '|' :: checksum'.val.toList := by
    simpa [keyMessage] using congrArg String.toList htext
  -- from the end: the part after the last bar, then the one after the bar before it
  obtain ⟨hfront, hlast⟩ :=
    append_cons_inj (bar_notMem_digest checksum) (bar_notMem_digest checksum') hchars
  obtain ⟨hpath, hsize⟩ := append_cons_inj (notMem_toString rfl size) (notMem_toString rfl size') hfront
  have hsize : size = size' := toString_nat_injective (String.toList_inj.1 hsize)
  have hchecksum : checksum = checksum' := Subtype.ext (String.toList_inj.1 hlast)
  rw [String.toList_inj.1 hpath, hsize, hchecksum]

/-- Equal keys are equal authentications. -/
theorem key_eq_iff {H : Hashes} {secret : String} {f f' : Fingerprint} : f.key H secret = f'.key H secret ↔
    H.hmacSha256 secret.toUTF8 f.message = H.hmacSha256 secret.toUTF8 f'.message := by
  rw [key, key, computeIdempotencyKey, computeIdempotencyKey, String.append_right_inj]
  exact Subtype.ext_iff.symm

/-- Where the authentication is injective, the key is. -/
theorem key_injOn {H : Hashes} {secret : String} {fs : Set Fingerprint}
    (hinj : Set.InjOn (H.hmacSha256 secret.toUTF8) (message '' fs)) : Set.InjOn (key H secret) fs := by
  intro f hf f' hf' hkey
  exact message_injective (hinj ⟨f, hf, rfl⟩ ⟨f', hf', rfl⟩ (key_eq_iff.1 hkey))

/-- The event is about the file. -/
def Describes (f : Fingerprint) (e : TransferEvent) : Prop :=
  e.source.path = f.sourcePath ∧ e.file.sizeBytes.val = f.sizeBytes ∧
    e.file.checksumSha256.val = f.checksumSha256.val

end Fingerprint

/-! ## The events of the watcher -/

/-- `os.path.isabs` -/
def isAbsolute (path : String) : Prop := path.toList.head? = some '/'

/-- The working directory is not looked at for an absolute path. -/
theorem absComponents_of_isAbsolute {path : String} (h : isAbsolute path) (cwd cwd' : String) :
    absComponents cwd path = absComponents cwd' path := by
  have hhead : path.toList.head? = some '/' := h
  simp only [absComponents, if_pos hhead]

/-- The working directory does not matter to absolute paths. -/
theorem relpath_of_isAbsolute {path start : String} (h : isAbsolute path) (hstart : isAbsolute start)
    (cwd cwd' : String) : relpath cwd path start = relpath cwd' path start := by
  simp only [relpath, absComponents_of_isAbsolute h cwd cwd', absComponents_of_isAbsolute hstart cwd cwd']

/-- The fingerprint of what `build_event` saw. -/
def Sighting.fingerprint (H : Hashes) (name : String) (s : Sighting) : Fingerprint :=
  ⟨name, s.size, H.sha256 s.content⟩

/-- A built event is described by one fingerprint. -/
theorem Sighting.describes_iff {H : Hashes} {cwd name : String} {settings : Settings} {s : Sighting}
    {f : Fingerprint} : f.Describes (s.event H cwd name settings) ↔ f = s.fingerprint H name := by
  obtain ⟨path, size, checksum⟩ := f
  constructor
  · rintro ⟨hpath, hsize, hchecksum⟩
    have hsize : s.size = size := Int.ofNat_inj.1 hsize
    have hchecksum : H.sha256 s.content = checksum := Subtype.ext hchecksum
    rw [Sighting.fingerprint, hsize, hchecksum]
    exact congrArg (Fingerprint.mk · size checksum) hpath.symm
  · intro h
    obtain ⟨rfl, rfl, rfl⟩ := Fingerprint.mk.inj h
    exact ⟨rfl, rfl, rfl⟩

/-- **Keys never conflate files.** Where the authentication under the secret is injective on the
messages of some fingerprints, keys are injective on the fingerprints; and two events built for such
files under the same settings, with equal keys, have the same path, size, checksum and destinations.
The destinations are relative to the watched directory, so a relative path means the same file only in
the same working directory. -/
theorem keys_never_conflate {H : Hashes} {secret : String} {fs : Set Fingerprint}
    (hinj : Set.InjOn (H.hmacSha256 secret.toUTF8) (Fingerprint.message '' fs)) :
    Set.InjOn (Fingerprint.key H secret) fs ∧
      ∀ (settings : Settings) (cwd cwd' : String) (path path' : Path) (tr tr' : List (Answered calls Exn))
        (e e' : TransferEvent), settings.correlationSecret = secret →
        (Watcher.buildEvent H cwd path settings).Makes tr (.ok e) →
        (Watcher.buildEvent H cwd' path' settings).Makes tr' (.ok e') →
        (∃ f ∈ fs, f.Describes e) → (∃ f ∈ fs, f.Describes e') →
        e.idempotencyKey.val = e'.idempotencyKey.val →
        e.source.path = e'.source.path ∧ e.file.sizeBytes = e'.file.sizeBytes ∧
          e.file.checksumSha256 = e'.file.checksumSha256 ∧
          (cwd = cwd' ∨ isAbsolute e.source.path ∧ isAbsolute settings.watchDir →
            e.destinations = e'.destinations) := by
  refine ⟨Fingerprint.key_injOn hinj, ?_⟩
  intro settings cwd cwd' path path' tr tr' e e' hsecret hbuilt hbuilt' hf hf' hkey
  obtain ⟨name, s, -, -, rfl⟩ := makes_buildEvent_iff.1 hbuilt
  obtain ⟨name', s', -, -, rfl⟩ := makes_buildEvent_iff.1 hbuilt'
  obtain ⟨f, hf, hdescribes⟩ := hf
  obtain ⟨f', hf', hdescribes'⟩ := hf'
  rw [Sighting.describes_iff] at hdescribes hdescribes'
  subst hdescribes hdescribes' hsecret
  -- the keys of the events are those of the fingerprints
  have hsame := Fingerprint.mk.inj (Fingerprint.key_injOn hinj hf hf' hkey)
  obtain ⟨rfl, hsize, hchecksum⟩ := hsame
  refine ⟨rfl, ?_, ?_, ?_⟩
  · exact Subtype.ext (congrArg Int.ofNat hsize)
  · have hval : (H.sha256 s.content).val = (H.sha256 s'.content).val := congrArg Subtype.val hchecksum
    exact Subtype.ext hval
  · intro hplace
    have hrel : relpath cwd name settings.watchDir = relpath cwd' name settings.watchDir := by
      obtain rfl | ⟨habs, hdir⟩ := hplace
      · rfl
      · exact relpath_of_isAbsolute habs hdir cwd cwd'
    simp only [Sighting.event, hrel]

/-- Sixty-four zeros. -/
def zeros : HexDigest := ⟨String.ofList (List.replicate 64 '0'), by decide⟩

/-- Two files, one with a bar and a digit in its name: their messages differ by one bar. -/
def barFiles : Set Fingerprint := {⟨"/watch/a|1", 2, zeros⟩, ⟨"/watch/a", 12, zeros⟩}

/-- The keys of the two example files differ. -/
theorem hmac_injOn_barFiles :
    Set.InjOn (hashlib.hmacSha256 "dev-secret-change-me".toUTF8) (Fingerprint.message '' barFiles) := by
  rw [barFiles, Set.image_pair, Set.injOn_pair]
  intro h
  exact absurd h (by decide +kernel)

/-- The keys of these files differ. -/
theorem keys_of_barFiles : Set.InjOn (Fingerprint.key hashlib "dev-secret-change-me") barFiles :=
  (keys_never_conflate hmac_injOn_barFiles).1

end TransferWorker
