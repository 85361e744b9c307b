import KubeSwift.Program.Paths

/-! # The packaged output, as the export Job accepts it

`VerifyArchive` of `export/archive.go`, over what the tar reader delivers of a stream. -/

namespace KubeSwift.Export

open Paths

inductive Reason
  | invalidEntry
  | tooLarge
  | tooMany
  deriving DecidableEq

inductive Message
  | notValid (err : Text)
  | noTrailingSlash (name : Text)
  | type (name : Text) (typeflag : UInt8)
  | paxRecord (name key : Text)
  | notClean (name : Text)
  | forbidden (name component : Text)
  | twice (name : Text)
  | beforeDirectory (name : Text)
  | notCanonical (name : Text)
  | mode (name : Text) (mode : Int)
  | moreEntries (maxEntries : Int)
  | moreBytes (maxBytes : Int)
  | content (name err : Text)
  | afterEnd
  deriving DecidableEq

inductive Failure
  | refused (reason : Reason) (message : Message)
  | read (err : Text)
  deriving DecidableEq

structure Header where
  name : Text
  typeflag : UInt8 := 48
  paxRecords : List (Text × Text) := []
  uid : Int := 0
  gid : Int := 0
  uname : Text := []
  gname : Text := []
  modTime : Int := 0
  mode : Int := 0o644
  size : Nat := 0

def Header.dir (hdr : Header) : Bool := hdr.typeflag = 53

def Header.path (hdr : Header) : Text := if hdr.dir then hdr.name.dropLast else hdr.name

structure Entry extends Header where
  /-- The error at which its content breaks off. -/
  cut : Option Text := none

structure Stream where
  bytes : List UInt8
  entries : List Entry
  /-- The error of `Next` after them, none at the end of the archive. -/
  ending : Option Text := none
  /-- The bytes after the end, and the error that ends them. -/
  rest : List UInt8 := []
  broken : Option Text := none

structure Summary where
  digest : Text := []
  bytes : Int := 0
  contentBytes : Int := 0
  entries : Int := 0

def int64 (n : Int) : Int := n.bmod (2 ^ 64)

def refuse {α : Type} (message : Message) : Except Failure α := .error (.refused .invalidEntry message)

def checkHeader (seen : List Text) (hdr : Header) : Except Failure Unit :=
  if hdr.dir ∧ hdr.name.getLast? ≠ some slash then refuse (.noTrailingSlash hdr.name)
  else if ¬hdr.dir ∧ hdr.typeflag ≠ 48 then refuse (.type hdr.name hdr.typeflag)
  else match hdr.paxRecords.find? fun r => r.1 ≠ text "path" ∧ r.1 ≠ text "size" with
  | some r => refuse (.paxRecord hdr.path r.1)
  | none =>
  if hdr.path = [] ∨ rooted hdr.path ∨ clean hdr.path ≠ hdr.path ∨ hdr.path = dot then refuse (.notClean hdr.name)
  else match (parts hdr.path).find? fun c => c = dotdot ∨ text ".wh." <+: c with
  | some c => refuse (.forbidden hdr.path c)
  | none =>
  if hdr.path ∈ seen then refuse (.twice hdr.path)
  else if Paths.dir hdr.path ≠ dot ∧ Paths.dir hdr.path ∉ seen then refuse (.beforeDirectory hdr.path)
  else if hdr.uid ≠ 0 ∨ hdr.gid ≠ 0 ∨ hdr.uname ≠ [] ∨ hdr.gname ≠ [] ∨ hdr.modTime ≠ 0 then
    refuse (.notCanonical hdr.path)
  else
    let mode := hdr.mode % 0o10000
    if (hdr.dir ∧ mode ≠ 0o755) ∨ (¬hdr.dir ∧ mode ≠ 0o755 ∧ mode ≠ 0o644) then refuse (.mode hdr.path mode)
    else .ok ()

def countEntry (maxBytes maxEntries : Int) (s : Summary) (e : Entry) : Except Failure Summary :=
  let s := { s with entries := int64 (s.entries + 1) }
  if s.entries > maxEntries then .error (.refused .tooMany (.moreEntries maxEntries))
  else if e.dir then .ok s
  else
    let s := { s with contentBytes := int64 (s.contentBytes + e.size) }
    if s.contentBytes > maxBytes then .error (.refused .tooLarge (.moreBytes maxBytes))
    else match e.cut with
    | some err => refuse (.content e.path err)
    | none => .ok s

def verifyEntries (maxBytes maxEntries : Int) : List Entry → List Text → Summary → Except Failure Summary
  | [], _, s => .ok s
  | e :: rest, seen, s =>
    match checkHeader seen e.toHeader with
    | .error err => .error err
    | .ok () =>
    match countEntry maxBytes maxEntries s e with
    | .error err => .error err
    | .ok s => verifyEntries maxBytes maxEntries rest (e.path :: seen) s

def verifyArchive (sha256 : List UInt8 → Text) (maxBytes maxEntries : Int) (stream : Stream) : Except Failure Summary :=
  match verifyEntries maxBytes maxEntries stream.entries [] {} with
  | .error err => .error err
  | .ok s =>
  match stream.ending with
  | some err => refuse (.notValid err)
  | none =>
  if ∃ b ∈ stream.rest, b ≠ 0 then refuse .afterEnd
  else match stream.broken with
  | some err => .error (.read err)
  | none => .ok { s with bytes := int64 stream.bytes.length, digest := text "sha256:" ++ sha256 stream.bytes }

/-- Relative, non-empty and clean, with no component that leads up or marks a whiteout. -/
structure Proper (p : Text) : Prop where
  nonempty : p ≠ []
  relative : rooted p = false
  cleaned : clean p = p
  notDot : p ≠ dot
  components : ∀ c ∈ parts p, c ≠ dotdot ∧ ¬text ".wh." <+: c

/-- Entries that, in their order, list a tree: each one below another comes after it, and that is a directory. -/
structure TreeListing (entries : List Entry) : Prop where
  proper : ∀ e ∈ entries, Proper e.path
  distinct : (entries.map (·.path)).Nodup
  nested : ∀ before e after, entries = before ++ e :: after → ∀ parent name, slash ∉ name →
    e.path = parent ++ slash :: name → ∃ d ∈ before, d.dir ∧ d.path = parent

def contentBytes (entries : List Entry) : Nat := (entries.map fun e => if e.dir then 0 else e.size).sum

variable {maxBytes maxEntries : Int} {entries : List Entry} {seen : List Text} {s s' : Summary} {e : Entry}

theorem checkHeader_ok {hdr : Header} (passed : checkHeader seen hdr = .ok ()) :
    Proper hdr.path ∧ hdr.path ∉ seen ∧ (Paths.dir hdr.path = dot ∨ Paths.dir hdr.path ∈ seen) := by
  unfold checkHeader refuse at passed
  repeat' split at passed
  all_goals first | cases passed | skip
  next clean_ _ none_ fresh parent _ =>
    simp only [List.find?_eq_none, decide_eq_true_eq, not_or, ne_eq, not_not] at none_ clean_
    obtain ⟨nonempty, relative, cleaned, notDot⟩ := clean_
    exact ⟨⟨nonempty, by simpa using relative, cleaned, notDot, none_⟩, fresh, by tauto⟩

theorem int64_eq {n : Nat} (fits : n < 2 ^ 63) : int64 n = n := Int.bmod_eq_of_le (by omega) (by omega)

theorem int64_lt (n : Int) : int64 n < 2 ^ 63 := Int.bmod_lt (by decide)

theorem countEntry_small (passed : countEntry maxBytes maxEntries s e = .ok s') (bytes : s.contentBytes < 2 ^ 63) :
    s'.entries < 2 ^ 63 ∧ s'.contentBytes < 2 ^ 63 := by
  have entries := int64_lt (s.entries + 1)
  have added := int64_lt (s.contentBytes + e.size)
  simp only [countEntry, refuse] at passed
  grind

theorem countEntry_ok (passed : countEntry maxBytes maxEntries s e = .ok s') {n size : Nat} (started : s.entries = n)
    (held : s.contentBytes = size) (below : (size : Int) ≤ maxBytes) (few : n + 1 < 2 ^ 63)
    (small : size + contentBytes [e] < 2 ^ 63) :
    s'.entries = ↑(n + 1) ∧ s'.entries ≤ maxEntries ∧ s'.contentBytes = ↑(size + contentBytes [e]) ∧
      s'.contentBytes ≤ maxBytes := by
  have counted : int64 (s.entries + 1) = ↑(n + 1) := by
    rw [started]
    exact_mod_cast int64_eq few
  by_cases dir : e.dir
  · simp only [countEntry, counted, dir, contentBytes] at passed small ⊢
    grind
  · have added : int64 (s.contentBytes + e.size) = ↑(size + e.size) := by
      have fits : size + e.size < 2 ^ 63 := by simpa [contentBytes, dir] using small
      rw [held]
      exact_mod_cast int64_eq fits
    simp only [countEntry, refuse, counted, dir, contentBytes, added] at passed small ⊢
    grind

theorem verifyEntries_cons {rest : List Entry} (passed : verifyEntries maxBytes maxEntries (e :: rest) seen s = .ok s') :
    checkHeader seen e.toHeader = .ok () ∧ ∃ next, countEntry maxBytes maxEntries s e = .ok next ∧
      verifyEntries maxBytes maxEntries rest (e.path :: seen) next = .ok s' := by
  rw [verifyEntries] at passed
  grind

variable (passed : verifyEntries maxBytes maxEntries entries seen s = .ok s')
include passed

theorem verifyEntries_counts {n size : Nat} (started : s.entries = n) (held : s.contentBytes = size)
    (within : (n : Int) ≤ maxEntries) (below : (size : Int) ≤ maxBytes) (few : n + entries.length < 2 ^ 63)
    (small : size + contentBytes entries < 2 ^ 63) :
    s'.entries = ↑(n + entries.length) ∧ s'.entries ≤ maxEntries ∧
      s'.contentBytes = ↑(size + contentBytes entries) ∧ s'.contentBytes ≤ maxBytes := by
  induction entries generalizing seen s n size with
  | nil =>
    cases passed
    simp [started, held, within, below, contentBytes]
  | cons e rest ih =>
    obtain ⟨-, next, counted, passed⟩ := verifyEntries_cons passed
    have split : contentBytes (e :: rest) = contentBytes [e] + contentBytes rest := by simp [contentBytes]
    rw [List.length_cons] at few ⊢
    obtain ⟨entries, most, bytes, full⟩ := countEntry_ok counted started held below (by omega) (by omega)
    have := ih passed entries bytes (entries ▸ most) (bytes ▸ full) (by omega) (by omega)
    grind

theorem verifyEntries_small (entries_ : s.entries < 2 ^ 63) (bytes : s.contentBytes < 2 ^ 63) :
    s'.entries < 2 ^ 63 ∧ s'.contentBytes < 2 ^ 63 := by
  induction entries generalizing seen s with
  | nil =>
    cases passed
    exact ⟨entries_, bytes⟩
  | cons e rest ih =>
    obtain ⟨-, next, counted, passed⟩ := verifyEntries_cons passed
    obtain ⟨fewer, smaller⟩ := countEntry_small counted bytes
    exact ih passed fewer smaller

theorem verifyEntries_paths :
    (∀ e ∈ entries, Proper e.path) ∧ (∀ e ∈ entries, e.path ∉ seen) ∧ (entries.map (·.path)).Nodup ∧
      ∀ before e after, entries = before ++ e :: after → Paths.dir e.path ≠ dot →
        Paths.dir e.path ∈ seen ∨ ∃ d ∈ before, d.path = Paths.dir e.path := by
  induction entries generalizing seen s with
  | nil => simp
  | cons first rest ih =>
    obtain ⟨checked, next, -, passed⟩ := verifyEntries_cons passed
    obtain ⟨proper, fresh, parent⟩ := checkHeader_ok checked
    obtain ⟨restProper, restFresh, distinct, nested⟩ := ih passed
    refine ⟨List.forall_mem_cons.mpr ⟨proper, restProper⟩, ?_, ?_, ?_⟩
    · grind
    · simp only [List.map_cons, List.nodup_cons, List.mem_map, not_exists, not_and]
      exact ⟨fun e found same => restFresh e found (by simp [same]), distinct⟩
    · rintro (_ | ⟨d, before⟩) e after shape below
      · cases shape
        exact .inl (parent.resolve_left below)
      · obtain ⟨rfl, tail⟩ := List.cons.inj shape
        rcases nested before e after tail below with seen | ⟨d, found, same⟩
        · grind
        · exact .inr ⟨d, by simp [found], same⟩

omit passed

theorem verifyArchive_ok {sha256 : List UInt8 → Text} {stream : Stream}
    (accepted : verifyArchive sha256 maxBytes maxEntries stream = .ok s) :
    (∃ counted, verifyEntries maxBytes maxEntries stream.entries [] {} = .ok counted ∧
      s.entries = counted.entries ∧ s.contentBytes = counted.contentBytes) ∧
      stream.ending = none ∧ ∀ b ∈ stream.rest, b = 0 := by
  unfold verifyArchive refuse at accepted
  repeat' split at accepted
  all_goals cases accepted
  next counted passed _ ended zero _ _ => exact ⟨⟨counted, passed, rfl, rfl⟩, ended, by simpa using zero⟩

/-- No regular file's path is the parent path of an entry. -/
def Bare (entries : List Entry) : Prop :=
  ∀ f ∈ entries, ¬f.dir → ∀ e ∈ entries, ∀ name, slash ∉ name → e.path ≠ f.path ++ slash :: name

theorem TreeListing.bare (tree : TreeListing entries) : Bare entries := by
  intro f file notDir e found name unbroken below
  obtain ⟨before, after, shape⟩ := List.append_of_mem found
  obtain ⟨d, earlier, dir, same⟩ := tree.nested before e after shape f.path name unbroken below
  have there : d ∈ entries := by simp [shape, earlier]
  exact notDir (List.inj_on_of_nodup_map tree.distinct there file same ▸ dir)

theorem treeListing_of_bare (passed : verifyEntries maxBytes maxEntries entries [] s = .ok s') (bare : Bare entries) :
    TreeListing entries := by
  obtain ⟨proper, -, distinct, nested⟩ := verifyEntries_paths passed
  refine ⟨proper, distinct, ?_⟩
  intro before e after shape parent name unbroken below
  have found : e ∈ entries := by simp [shape]
  obtain ⟨parent_, above⟩ := dir_eq (proper e found).relative (proper e found).cleaned below unbroken
  rcases nested before e after shape (parent_ ▸ above) with seen | ⟨d, earlier, here⟩
  · cases seen
  · have there : d ∈ entries := by simp [shape, earlier]
    refine ⟨d, earlier, ?_, here.trans parent_⟩
    by_contra file
    exact bare d there file e found name unbroken (by rw [below, here, parent_])

/-- An archive that is accepted lists a tree exactly where no file of it stands where a directory has to, the limits are
not negative and what is counted stays below `2 ^ 63`. -/
theorem accepted_archive_is_tree {sha256 : List UInt8 → Text} {stream : Stream}
    (accepted : verifyArchive sha256 maxBytes maxEntries stream = .ok s) :
    (TreeListing stream.entries ∧
      (s.entries = stream.entries.length ∧ s.entries ≤ maxEntries) ∧
      (s.contentBytes = contentBytes stream.entries ∧ s.contentBytes ≤ maxBytes) ∧
      stream.ending = none ∧ ∀ b ∈ stream.rest, b = 0) ↔
    Bare stream.entries ∧ (0 ≤ maxBytes ∧ 0 ≤ maxEntries) ∧
      stream.entries.length < 2 ^ 63 ∧ contentBytes stream.entries < 2 ^ 63 := by
  obtain ⟨⟨counted, passed, same, sameBytes⟩, ended, zero⟩ := verifyArchive_ok accepted
  rw [same, sameBytes]
  constructor
  · rintro ⟨tree, ⟨count, most⟩, ⟨bytes, full⟩, -⟩
    obtain ⟨fewer, smaller⟩ := verifyEntries_small passed (by decide) (by decide)
    exact ⟨tree.bare, by omega, by omega, by omega⟩
  · rintro ⟨bare, limits, few, small⟩
    obtain ⟨count, most, bytes, full⟩ := verifyEntries_counts passed rfl rfl limits.2 limits.1
      (by simpa using few) (by simpa using small)
    exact ⟨treeListing_of_bare passed bare, ⟨by simpa using count, most⟩, ⟨by simpa using bytes, full⟩, ended, zero⟩

private def packed : Stream where
  bytes := []
  entries := [{ name := text "a/", typeflag := 53, mode := 0o755 }, { name := text "a/b", size := 3 }]
  rest := [0]

theorem accepted_archive_is_tree_of_two : ∃ s, verifyArchive id 3 2 packed = .ok s ∧ TreeListing packed.entries := by
  have shorter : ∀ f ∈ packed.entries, ¬f.dir → ∀ e ∈ packed.entries, e.path.length ≤ f.path.length := by decide
  obtain ⟨s, accepted⟩ : ∃ s, verifyArchive id 3 2 packed = .ok s := ⟨_, rfl⟩
  refine ⟨s, accepted, ((accepted_archive_is_tree accepted).mpr ⟨?_, by decide⟩).1⟩
  intro f file notDir e there name _ same
  have long := congrArg List.length same
  have := shorter f file notDir e there
  simp only [List.length_append, List.length_cons] at long
  omega

/-- A file's path is taken for its directory's. -/
theorem accepted_archive_below_file : ∃ (stream : Stream) (s : Summary),
    verifyArchive id 0 2 stream = .ok s ∧ ¬TreeListing stream.entries := by
  refine ⟨⟨[], [{ name := text "a" }, { name := text "a/b" }], none, [], none⟩, _, rfl, ?_⟩
  intro tree
  obtain ⟨d, found, dir, -⟩ := tree.nested [{ name := text "a" }] _ [] rfl (text "a") (text "b") (by decide) rfl
  cases List.mem_singleton.mp found
  exact absurd dir (by decide)

end KubeSwift.Export
