import Mathlib
import TernBackend.Container.Content
import TernBackend.Files.FileTree
import TernBackend.Image.Basic
import TernBackend.Proofs.Wire.Field

/-!
# Files that grow

A reader looks at the front of a file and at the places that the front names, and it finds a file corrupt
as soon as one of these is not there. So an answer that does not call the file corrupt is also the answer
about the file with more bytes behind it (`Settled`), and what a truncated file tells is either that or
what the whole file tells (`answers_settled`).
-/

namespace TernBackend.Wire

theorem cut?_append_of_eq_some {n : Nat} {bs front rest : Bytes} (more : Bytes)
    (h : cut? n bs = some (front, rest)) : cut? n (bs ++ more) = some (front, rest ++ more) := by
  obtain ⟨rfl, rfl⟩ := cut?_eq_some_iff.1 h
  rw [List.append_assoc, cut?_append]

end TernBackend.Wire

namespace TernBackend.Container

/-- What is answered about a file, and then about the same file with more bytes behind it. Only a file
that was found corrupt may be answered otherwise once it has grown. -/
inductive Settled (path : Path) {α : Type} : Answer α → Answer α → Prop
  | corrupt (corruption : Corruption) (later : Answer α) :
    Settled path (.error (.corruptContainer path corruption)) later
  | ok (value : α) : Settled path (.ok value) (.ok value)
  | versionMismatch (expected found : AbiVersion) :
    Settled path (.error (.versionMismatch path expected found))
      (.error (.versionMismatch path expected found))
  | fragmentNotFound (name : String) :
    Settled path (.error (.fragmentNotFound path name)) (.error (.fragmentNotFound path name))

section

variable {path : Path} {α β : Type}

theorem Settled.bind {a b : Answer α} {next next' : α → Answer β} (h : Settled path a b)
    (hnext : ∀ x, Settled path (next x) (next' x)) : Settled path (a >>= next) (b >>= next') := by
  cases h with
  | corrupt corruption => exact .corrupt corruption _
  | ok x => exact hnext x
  | versionMismatch expected found => exact .versionMismatch expected found
  | fragmentNotFound name => exact .fragmentNotFound name

theorem Settled.eq_of_ne {a b : Answer α} (h : Settled path a b)
    (hne : ∀ corruption, a ≠ .error (.corruptContainer path corruption)) : b = a := by
  cases h with
  | corrupt corruption => exact absurd rfl (hne corruption)
  | ok | versionMismatch | fragmentNotFound => rfl

/-! ## The steps of a reader -/

/-- The preamble stays, and what stands behind it grows. -/
theorem Settled.preamble {file more : Bytes} {next next' : Preamble × Bytes → Answer β}
    (hnext : ∀ p rest, Settled path (next (p, rest)) (next' (p, rest ++ more))) :
    Settled path (preamble path file >>= next) (preamble path (file ++ more) >>= next') := by
  unfold Container.preamble Preamble.decode
  cases hcut : Wire.cut? Preamble.length file with
  | none => exact .corrupt .endOfFile _
  | some cut =>
    obtain ⟨front, rest⟩ := cut
    rw [Wire.cut?_append_of_eq_some more hcut]
    simp only
    cases Preamble.ofFront front with
    | error corruption => exact .corrupt corruption _
    | ok p => exact hnext p rest

theorem settled_index (p : Preamble) (rest more : Bytes) :
    Settled path (index path p rest) (index path p (rest ++ more)) := by
  unfold index
  by_cases hshort : rest.length < p.indexLength.toNat
  · rw [if_pos hshort]
    exact .corrupt _ _
  · have hlong : ¬ (rest ++ more).length < p.indexLength.toNat := by
      rw [List.length_append]
      omega
    rw [if_neg hshort, if_neg hlong, List.take_append_of_le_length (by omega)]
    cases Index.decode (rest.take p.indexLength.toNat) with
    | error fault => exact .corrupt (.index fault) _
    | ok decoded => exact .ok decoded.1

theorem toNat_checkedAdd {a b c : UInt64} (h : checkedAdd a b = some c) : c.toNat = a.toNat + b.toNat := by
  rw [checkedAdd, Option.ite_none_right_eq_some] at h
  obtain ⟨hfits, hc⟩ := h
  rw [← Option.some.inj hc, UInt64.toNat_add, Nat.mod_eq_of_lt hfits]

/-- The end of a place is as far behind its start as its entry is long. -/
theorem toNat_range? {p : Preamble} {e : Entry} {start stop : UInt64} (h : range? p e = some (start, stop)) :
    stop.toNat = start.toNat + e.length.toNat := by
  simp only [range?, bind, Option.bind_eq_some_iff] at h
  obtain ⟨start', -, stop', hstop, heq⟩ := h
  obtain ⟨rfl, rfl⟩ := Prod.mk.inj (Option.some.inj heq)
  exact toNat_checkedAdd hstop

/-- Bytes that end within a file are not moved by what comes behind them. -/
theorem take_drop_append {start length : Nat} {file : Bytes} (more : Bytes) (h : start + length ≤ file.length) :
    ((file ++ more).drop start).take length = (file.drop start).take length := by
  rw [List.drop_append_of_le_length (by omega),
    List.take_append_of_le_length (by rw [List.length_drop]; omega)]

/-! ## The questions -/

variable (path) (file more : Bytes)

theorem settled_abiVersion : Settled path (abiVersion path file) (abiVersion path (file ++ more)) :=
  .preamble fun p _ => .ok p.abiVersion

theorem settled_fragmentNames :
    Settled path (fragmentNames path file) (fragmentNames path (file ++ more)) :=
  .preamble fun p rest => (settled_index p rest more).bind fun index => .ok index.names

theorem settled_header (version : AbiVersion) :
    Settled path (header path file version) (header path (file ++ more) version) := by
  refine .preamble fun p rest => ?_
  by_cases hversion : p.abiVersion ≠ version
  · simp only [if_pos hversion]
    exact .versionMismatch version p.abiVersion
  · simp only [if_neg hversion]
    refine (settled_index p rest more).bind fun index => ?_
    cases TableOfContents.ofEncoded index.tableOfContents with
    | error fault => exact .corrupt (.tableOfContents fault) _
    | ok tableOfContents => exact .ok _

theorem settled_fragment (name : String) :
    Settled path (fragment path file name) (fragment path (file ++ more) name) := by
  refine .preamble fun p rest => (settled_index p rest more).bind fun index => ?_
  cases hentry : index.entry? name with
  | none => exact .fragmentNotFound name
  | some e =>
    have hcorrupt (later : Answer Bytes) : Settled path
        (.error (.corruptContainer path (.fragmentOutside name e.offset e.length))) later :=
      .corrupt _ later
    cases hrange : range? p e with
    | none =>
      simp only [hrange]
      exact hcorrupt _
    | some range =>
      obtain ⟨start, stop⟩ := range
      have hstop := toNat_range? hrange
      have hspan : (stop - start).toNat = e.length.toNat := by
        rw [UInt64.toNat_sub_of_le _ _ (by rw [UInt64.le_iff_toNat_le]; omega), hstop]
        omega
      simp only [hrange]
      by_cases hinside : stop.toNat ≤ file.length
      · have hlonger : stop.toNat ≤ (file ++ more).length := by
          rw [List.length_append]
          omega
        rw [if_pos hinside, if_pos hlonger, hspan, take_drop_append more (hstop ▸ hinside)]
        exact .ok _
      · rw [if_neg hinside]
        exact hcorrupt _

end

/-! ## The result -/

/-- **Answers stand when a file grows.** A file of a path holds some bytes, and another time more bytes that
begin with these; in other words, the first is a truncation of the second. Then for the header under any
version, the bytes of any fragment, the names of the fragments and the version, the first answer is that
the file is corrupt, or it is the second answer too: a value, a version mismatch, or a fragment that is
not there. -/
theorem answers_settled {short long : FileSystem} {path : Path} {part whole : Bytes}
    (hpart : short.library path = .ok part) (hwhole : long.library path = .ok whole) (h : part <+: whole) :
    (∀ version, Settled path (short.header path version) (long.header path version)) ∧
    (∀ name, Settled path (short.fragment path name) (long.fragment path name)) ∧
    Settled path (short.fragmentNames path) (long.fragmentNames path) ∧
    Settled path (short.abiVersion path) (long.abiVersion path) := by
  obtain ⟨more, rfl⟩ := h
  have hread {β : Type} (fs : FileSystem) {file : Bytes} (tell : Bytes → Answer β)
      (hfile : fs.library path = .ok file) : (fs.library path >>= tell) = tell file := by
    rw [hfile]
    rfl
  refine ⟨fun version => ?_, fun name => ?_, ?_, ?_⟩
  · rw [FileSystem.header, FileSystem.header, hread short _ hpart, hread long _ hwhole]
    exact settled_header path part more version
  · rw [FileSystem.fragment, FileSystem.fragment, hread short _ hpart, hread long _ hwhole]
    exact settled_fragment path part more name
  · rw [FileSystem.fragmentNames, FileSystem.fragmentNames, hread short _ hpart, hread long _ hwhole]
    exact settled_fragmentNames path part more
  · rw [FileSystem.abiVersion, FileSystem.abiVersion, hread short _ hpart, hread long _ hwhole]
    exact settled_abiVersion path part more

/-- A container whose last byte is missing still tells its first fragment, which is then the one of the
whole container; the second it cannot tell. -/
theorem answers_settled_truncated :
    let content : ContainerContent :=
      ((⟨"m", .current, none, .empty⟩ : ContainerContent).addFragment "a" [1]).addFragment "b" [2]
    let holding (file : Bytes) : FileSystem :=
      (FileTree.ofFiles [(Utf8.encode "lib", file)]).toFileSystem
    let short := holding content.encode.dropLast
    let long := holding content.encode
    content.encode.dropLast <+: content.encode ∧
      short.fragment (.ofText "lib") "a" = .ok [1] ∧ long.fragment (.ofText "lib") "a" = .ok [1] ∧
      (short.fragment (.ofText "lib") "b").toOption = none := by
  intro content holding short long
  have hshort : short.library (.ofText "lib") = .ok content.encode.dropLast := rfl
  have hlong : long.library (.ofText "lib") = .ok content.encode := rfl
  have hcut : content.encode.dropLast <+: content.encode := List.dropLast_prefix _
  have hfirst : short.fragment (.ofText "lib") "a" = .ok [1] := by
    cbv
  have hsecond : (short.fragment (.ofText "lib") "b").toOption = none := by
    decide +kernel
  obtain ⟨-, hfragment, -⟩ := answers_settled hshort hlong hcut
  refine ⟨hcut, hfirst, ?_, hsecond⟩
  rw [← hfirst]
  refine (hfragment "a").eq_of_ne fun corruption heq => ?_
  rw [hfirst] at heq
  cases heq

end TernBackend.Container
