import Mathlib.Data.List.DropRight
import TernBackend.Path
import TernBackend.Proofs.Text.Pieces

/-!
# Paths by their pieces

What is void at the end changes nothing that a path means (`Path.meant_dropVoidEnd`). A path has a name just if its
last component is an ordinary one, and then the piece of that name is the last that means something
(`Path.exists_of_name?`); otherwise it is empty, the root, the current directory, or goes up at the end
(`Path.name?_eq_none_iff`).

The other way round, pieces that fit a start (`Path.Fits`) can be joined and a name can be put behind them. What that
makes is told apart again into what it was made of (`Path.Fits.split_join_concat`, `Path.Fits.of_bytes`).
-/

namespace TernBackend

/-- A piece of a path that stands for a name: it is not empty and means neither the directory itself nor the one
above. -/
structure IsNamePiece (piece : Bytes) : Prop where
  ne_nil : piece ≠ []
  ne_dot : piece ≠ [dot]
  ne_dots : piece ≠ [dot, dot]

/-- A name that an entry of a directory can have. -/
structure IsEntryName (name : Bytes) : Prop where
  piece : IsNamePiece name
  no_slash : slash ∉ name

namespace Path

/-! ## Pieces and what they mean -/

/-- The components that pieces stand for. -/
def meant (pieces : List Bytes) : List Component := (pieces.filter fun piece => !isVoid piece).map .ofPiece

theorem components_eq (p : Path) :
    p.components = (split p.bytes).1.components ++ meant (split p.bytes).2 := rfl

theorem meant_concat {pieces : List Bytes} {piece : Bytes} (h : isVoid piece = false) :
    meant (pieces ++ [piece]) = meant pieces ++ [.ofPiece piece] := by
  simp [meant, List.filter_append, h]

theorem dropVoidEnd_eq (pieces : List Bytes) : dropVoidEnd pieces = pieces.rdropWhile isVoid := rfl

theorem meant_dropVoidEnd (pieces : List Bytes) : meant (dropVoidEnd pieces) = meant pieces := by
  rw [dropVoidEnd_eq]
  -- the void pieces are at the end, so the induction goes from there
  induction pieces using List.reverseRecOn with
  | nil => rfl
  | append_singleton pieces piece ih =>
    by_cases h : isVoid piece = true
    · rw [List.rdropWhile_concat_pos _ _ _ h, ih]
      simp [meant, List.filter_append, h]
    · rw [List.rdropWhile_concat_neg _ _ _ h]

/-- Nothing is left of pieces that are all void, or else the last one that is left is not. -/
theorem dropVoidEnd_cases (pieces : List Bytes) :
    dropVoidEnd pieces = [] ∨ ∃ before piece, dropVoidEnd pieces = before ++ [piece] ∧ isVoid piece = false := by
  rw [dropVoidEnd_eq]
  induction pieces using List.reverseRecOn with
  | nil => exact .inl rfl
  | append_singleton pieces piece ih =>
    by_cases h : isVoid piece = true
    · rw [List.rdropWhile_concat_pos _ _ _ h]
      exact ih
    · rw [List.rdropWhile_concat_neg _ _ _ h]
      exact .inr ⟨pieces, piece, rfl, Bool.eq_false_iff.2 h⟩

/-! ## The start of a path -/

theorem isVoid_iff {piece : Bytes} : isVoid piece = true ↔ piece = [] ∨ piece = [dot] := by
  simp [isVoid]

theorem ofPieces_of_not_isVoid {first : Bytes} (hvoid : isVoid first = false) (pieces : List Bytes) :
    ofPieces (first :: pieces) = (.plain, first :: pieces) := by
  obtain ⟨hempty, hdot⟩ : first ≠ [] ∧ first ≠ [dot] := by simpa [isVoid] using hvoid
  obtain ⟨b, bs, rfl⟩ := List.exists_cons_of_ne_nil hempty
  exact if_neg hdot

/-- What starts plainly is empty, or its first piece means something. -/
theorem ofPieces_of_plain {first : Bytes} {pieces : List Bytes} (h : (ofPieces (first :: pieces)).1 = .plain) :
    first = [] ∧ pieces = [] ∨ isVoid first = false := by
  by_cases hvoid : isVoid first = true
  · rcases isVoid_iff.1 hvoid with rfl | rfl
    · cases pieces with
      | nil => exact .inl ⟨rfl, rfl⟩
      | cons second pieces => cases h
    · cases h
  · exact .inr (Bool.eq_false_iff.2 hvoid)

/-- Joined pieces are told apart again by the first of them. -/
theorem split_intercalate {pieces : List Bytes} (hslash : ∀ piece ∈ pieces, slash ∉ piece) (hne : pieces ≠ []) :
    split ([slash].intercalate pieces) = ofPieces pieces := by
  rw [split, List.splitOn_intercalate slash hslash hne]

/-- Pieces that can stand behind a start: none has a slash in it, behind a `.` a separator comes first, and a plain
start is followed by a piece that means something. -/
structure Fits (start : Start) (pieces : List Bytes) : Prop where
  no_slash : ∀ piece ∈ pieces, slash ∉ piece
  current : start = .current → ∀ first ∈ pieces.head?, first = []
  plain : start = .plain → ∀ first ∈ pieces.head?, isVoid first = false

theorem Fits.of_isPrefix {start : Start} {pieces pieces' : List Bytes} (h : Fits start pieces)
    (hbegin : pieces' <+: pieces) : Fits start pieces' := by
  have hhead : ∀ first ∈ pieces'.head?, first ∈ pieces.head? := by
    obtain ⟨rest, rfl⟩ := hbegin
    intro first hfirst
    rw [List.head?_append, Option.mem_def.1 hfirst]
    rfl
  exact ⟨fun piece hpiece => h.no_slash piece (hbegin.subset hpiece),
    fun hstart first hfirst => h.current hstart first (hhead first hfirst),
    fun hstart first hfirst => h.plain hstart first (hhead first hfirst)⟩

theorem fits_ofPieces {pieces : List Bytes} (hslash : ∀ piece ∈ pieces, slash ∉ piece) :
    Fits (ofPieces pieces).1 (ofPieces pieces).2 := by
  unfold ofPieces
  split
  next => exact ⟨nofun, nofun, nofun⟩
  next => exact ⟨nofun, nofun, nofun⟩
  next pieces _ => exact ⟨fun piece hpiece => hslash piece (List.mem_cons_of_mem _ hpiece), nofun, nofun⟩
  next first pieces _ hroot =>
    split
    next =>
      split
      next => exact ⟨nofun, nofun, nofun⟩
      next =>
        refine ⟨fun piece hpiece => ?_, fun _ first hfirst => (Option.some.inj hfirst).symm, nofun⟩
        rcases List.mem_cons.1 hpiece with rfl | hpiece
        · exact List.not_mem_nil
        · exact hslash piece (List.mem_cons_of_mem _ hpiece)
    next hdot =>
      refine ⟨hslash, nofun, fun _ piece hpiece => ?_⟩
      cases hpiece
      rw [Bool.eq_false_iff, Ne, isVoid_iff, not_or]
      exact ⟨hroot, hdot⟩

/-- The pieces of a path fit its start, once the void ones at the end are gone. -/
theorem fits_split (bs : Bytes) : Fits (split bs).1 (dropVoidEnd (split bs).2) :=
  (fits_ofPieces fun _ => notMem_of_mem_splitOn).of_isPrefix (List.rdropWhile_prefix _ _)

/-! ## A name behind a folder -/

theorem intercalate_concat {pieces : List Bytes} (hne : pieces ≠ []) (piece : Bytes) :
    [slash].intercalate (pieces ++ [piece]) = [slash].intercalate pieces ++ slash :: piece := by
  induction pieces with
  | nil => exact absurd rfl hne
  | cons first pieces ih =>
    cases pieces with
    | nil => simp
    | cons second pieces =>
      have hrest := ih (List.cons_ne_nil second pieces)
      rw [List.cons_append] at hrest
      rw [List.cons_append, List.cons_append, List.intercalate_cons_cons, hrest, List.intercalate_cons_cons,
        List.append_assoc _ _ (slash :: piece)]

/-- The pieces of all that is joined. -/
def whole : Start → List Bytes → List Bytes
  | .root, [] => [[], []]
  | .root, pieces => [] :: pieces
  | .current, pieces => [dot] :: pieces.tail
  | .plain, pieces => pieces

variable {start : Start} {pieces : List Bytes}

theorem Fits.join_eq (h : Fits start pieces) : join start pieces = [slash].intercalate (whole start pieces) := by
  cases start with
  | root =>
    cases pieces with
    | nil => rfl
    | cons first pieces =>
      change _ = [slash].intercalate ([] :: first :: pieces)
      rw [List.intercalate_cons_cons]
      rfl
  | current =>
    cases pieces with
    | nil => rfl
    | cons first pieces =>
      obtain rfl := h.current rfl first rfl
      cases pieces with
      | nil => rfl
      | cons second pieces =>
        rw [join, whole, List.tail_cons, List.intercalate_cons_cons, List.intercalate_cons_cons]
        rfl
  | plain => rfl

theorem Fits.whole_no_slash (h : Fits start pieces) : ∀ piece ∈ whole start pieces, slash ∉ piece := by
  intro piece hpiece
  have hmem : piece = [] ∨ piece = [dot] ∨ piece ∈ pieces := by
    cases start with
    | root =>
      cases pieces with
      | nil => exact .inl (by simpa [whole] using hpiece)
      | cons first pieces =>
        rcases List.mem_cons.1 hpiece with rfl | hpiece
        · exact .inl rfl
        · exact .inr (.inr hpiece)
    | current =>
      rcases List.mem_cons.1 hpiece with rfl | hpiece
      · exact .inr (.inl rfl)
      · exact .inr (.inr (List.mem_of_mem_tail hpiece))
    | plain => exact .inr (.inr hpiece)
  rcases hmem with rfl | rfl | hmem
  · decide
  · decide
  · exact h.no_slash piece hmem

/-- A name behind joined pieces comes in at the end, behind a void piece if there was nothing to join. -/
theorem Fits.ofPieces_whole_concat (h : Fits start pieces) (hne : join start pieces ≠ []) (name : Bytes) :
    ∃ before, ofPieces (whole start pieces ++ [name]) = (start, before ++ [name]) ∧
      dropVoidEnd before = dropVoidEnd pieces := by
  cases start with
  | root =>
    cases pieces with
    | nil => exact ⟨[[]], rfl, rfl⟩
    | cons first pieces => exact ⟨first :: pieces, rfl, rfl⟩
  | current =>
    cases pieces with
    | nil => exact ⟨[[]], rfl, rfl⟩
    | cons first pieces =>
      obtain rfl := h.current rfl first rfl
      refine ⟨[] :: pieces, ?_, rfl⟩
      cases pieces <;> rfl
  | plain =>
    cases pieces with
    | nil => exact absurd rfl hne
    | cons first pieces => exact ⟨first :: pieces, ofPieces_of_not_isVoid (h.plain rfl first rfl) _, rfl⟩

/-- Joined pieces, and a name behind them, are told apart again, up to void pieces before the name. -/
theorem Fits.split_join_concat {name : Bytes} (h : Fits start pieces) (hne : join start pieces ≠ [])
    (hname : slash ∉ name) :
    ∃ before, split (join start pieces ++ slash :: name) = (start, before ++ [name]) ∧
      dropVoidEnd before = dropVoidEnd pieces := by
  obtain ⟨before, hpieces, hend⟩ := h.ofPieces_whole_concat hne name
  refine ⟨before, ?_, hend⟩
  have hwhole : whole start pieces ≠ [] := by
    intro hnil
    rw [h.join_eq, hnil] at hne
    exact hne rfl
  rw [h.join_eq, ← intercalate_concat hwhole, split_intercalate ?_ (by simp), hpieces]
  intro piece hpiece
  rcases List.mem_append.1 hpiece with hpiece | hpiece
  · exact h.whole_no_slash piece hpiece
  · rw [List.mem_singleton.1 hpiece]
    exact hname

/-- Nothing is joined just if there is nothing to start with and nothing that means something. -/
theorem Fits.join_eq_nil_iff (h : Fits start pieces) :
    join start pieces = [] ↔ start.components ++ meant pieces = [] := by
  cases start with
  | root | current => simp [join, Start.bytes, Start.components]
  | plain =>
    cases pieces with
    | nil => exact iff_of_true rfl rfl
    | cons first pieces =>
      have hvoid := h.plain rfl first rfl
      have hmeant : meant (first :: pieces) ≠ [] := by simp [meant, hvoid]
      have hempty : first ≠ [] := by
        rintro rfl
        cases hvoid
      have hjoin : [slash].intercalate (first :: pieces) ≠ [] := by
        cases pieces <;> simp [hempty]
      exact iff_of_false hjoin hmeant

/-! ## The last component -/

variable {p : Path} {name : Bytes}

theorem isNamePiece_iff {piece : Bytes} : IsNamePiece piece ↔ isVoid piece = false ∧ piece ≠ [dot, dot] := by
  rw [Bool.eq_false_iff, Ne, isVoid_iff, not_or]
  constructor
  · rintro ⟨hempty, hdot, hdots⟩
    exact ⟨⟨hempty, hdot⟩, hdots⟩
  · rintro ⟨⟨hempty, hdot⟩, hdots⟩
    exact ⟨hempty, hdot, hdots⟩

theorem components_cases (p : Path) :
    (dropVoidEnd (split p.bytes).2 = [] ∧ p.components = (split p.bytes).1.components) ∨
      ∃ before piece, dropVoidEnd (split p.bytes).2 = before ++ [piece] ∧ isVoid piece = false ∧
        p.components = (split p.bytes).1.components ++ meant before ++ [.ofPiece piece] := by
  rw [components_eq, ← meant_dropVoidEnd]
  rcases dropVoidEnd_cases (split p.bytes).2 with hend | ⟨before, piece, hend, hvoid⟩
  · exact .inl ⟨hend, by rw [hend]; exact List.append_nil _⟩
  · exact .inr ⟨before, piece, hend, hvoid, by rw [hend, meant_concat hvoid, List.append_assoc]⟩

theorem name?_eq_some_iff : p.name? = some name ↔ p.components.getLast? = some (.normal name) := by
  unfold name?
  split <;> simp_all

theorem ofPiece_eq_normal_iff {piece : Bytes} :
    Component.ofPiece piece = .normal name ↔ piece ≠ [dot, dot] ∧ piece = name := by
  unfold Component.ofPiece
  split
  next hdots => simp [hdots]
  next hdots =>
    rw [Component.normal.injEq, and_iff_right hdots]

/-- A path with a name has the piece of that name behind all others that mean something. -/
theorem exists_of_name? (h : p.name? = some name) :
    ∃ before, dropVoidEnd (split p.bytes).2 = before ++ [name] ∧ IsEntryName name ∧
      p.components = (split p.bytes).1.components ++ meant before ++ [.normal name] := by
  rw [name?_eq_some_iff] at h
  rcases components_cases p with ⟨-, hcomponents⟩ | ⟨before, piece, hend, hvoid, hcomponents⟩
  · rw [hcomponents] at h
    cases hstart : (split p.bytes).1 <;> simp [hstart, Start.components] at h
  · rw [hcomponents, List.getLast?_concat, Option.some.injEq] at h
    rw [h] at hcomponents
    obtain ⟨hdots, rfl⟩ := ofPiece_eq_normal_iff.1 h
    have hslash : slash ∉ piece := by
      refine (fits_split p.bytes).no_slash piece ?_
      rw [hend]
      exact List.mem_append_right _ List.mem_cons_self
    exact ⟨before, hend, ⟨isNamePiece_iff.2 ⟨hvoid, hdots⟩, hslash⟩, hcomponents⟩

theorem mem_split_of_name? (h : p.name? = some name) : name ∈ (split p.bytes).2 := by
  obtain ⟨before, hend, -, -⟩ := exists_of_name? h
  have hbegin : dropVoidEnd (split p.bytes).2 <+: (split p.bytes).2 := List.rdropWhile_prefix _ _
  exact hbegin.subset (hend ▸ List.mem_append_right before List.mem_cons_self)

theorem name?_ne_nil (h : p.name? = some name) : name ≠ [] := by
  obtain ⟨-, -, hname, -⟩ := exists_of_name? h
  exact hname.piece.ne_nil

theorem parent_eq {before : List Bytes} {piece : Bytes}
    (h : dropVoidEnd (split p.bytes).2 = before ++ [piece]) :
    p.parent = join (split p.bytes).1 (dropVoidEnd before) := by
  rw [parent]
  simp only [h, List.dropLast_concat]

/-- A path that is made of joined pieces and a name behind them. -/
theorem Fits.of_bytes (h : Fits start pieces) (hne : join start pieces ≠ []) (hname : IsEntryName name)
    (hbytes : p.bytes = join start pieces ++ slash :: name) :
    p.components = start.components ++ meant pieces ++ [.normal name] ∧ p.name? = some name ∧
      p.parent = join start (dropVoidEnd pieces) := by
  obtain ⟨before, hsplit, hend⟩ := h.split_join_concat hne hname.no_slash
  obtain ⟨hvoid, hdots⟩ := isNamePiece_iff.1 hname.piece
  have hnormal : Component.ofPiece name = .normal name :=
    ofPiece_eq_normal_iff.2 ⟨hdots, rfl⟩
  have hcomponents : p.components = start.components ++ meant pieces ++ [.normal name] := by
    rw [components_eq, hbytes, hsplit, meant_concat hvoid, hnormal, ← meant_dropVoidEnd before, hend, meant_dropVoidEnd,
      List.append_assoc]
  refine ⟨hcomponents, name?_eq_some_iff.2 (by rw [hcomponents, List.getLast?_concat]), ?_⟩
  have hlast : dropVoidEnd (split p.bytes).2 = before ++ [name] := by
    rw [hbytes, hsplit]
    exact List.rdropWhile_concat_neg _ _ _ (by rw [hvoid]; exact Bool.false_ne_true)
  rw [parent_eq hlast, hbytes, hsplit, hend]

/-- Only the empty path starts plainly and has nothing that means something. -/
theorem bytes_eq_nil (hstart : (split p.bytes).1 = .plain) (hend : dropVoidEnd (split p.bytes).2 = []) :
    p.bytes = [] := by
  have hjoined : [slash].intercalate (p.bytes.splitOn slash) = p.bytes := List.intercalate_splitOn slash
  obtain ⟨first, pieces, hpieces⟩ := List.exists_cons_of_ne_nil (List.splitOn_ne_nil slash p.bytes)
  rw [split, hpieces] at hstart hend
  rw [hpieces] at hjoined
  rcases ofPieces_of_plain hstart with ⟨rfl, rfl⟩ | hvoid
  · exact hjoined.symm
  · rw [dropVoidEnd_eq, List.rdropWhile_eq_nil_iff, ofPieces_of_not_isVoid hvoid] at hend
    rw [hend first List.mem_cons_self] at hvoid
    cases hvoid

/-- What has no name. -/
theorem name?_eq_none_iff : p.name? = none ↔
    p.bytes = [] ∨ p.components = [.root] ∨ p.components = [.current] ∨ p.components.getLast? = some .parent := by
  constructor
  · intro h
    rcases components_cases p with ⟨hend, hcomponents⟩ | ⟨before, piece, -, -, hcomponents⟩
    · cases hstart : (split p.bytes).1 with
      | root => exact .inr (.inl (by rw [hcomponents, hstart]; rfl))
      | current => exact .inr (.inr (.inl (by rw [hcomponents, hstart]; rfl)))
      | plain => exact .inl (bytes_eq_nil hstart hend)
    · have hlast : p.components.getLast? = some (Component.ofPiece piece) := by rw [hcomponents, List.getLast?_concat]
      by_cases hdots : piece = [dot, dot]
      · exact .inr (.inr (.inr (by rw [hlast, hdots]; rfl)))
      · have hname : Component.ofPiece piece = .normal piece := if_neg hdots
        rw [name?_eq_some_iff.2 (hlast.trans (congrArg some hname))] at h
        cases h
  · rintro (h | h | h | h)
    · obtain ⟨bytes⟩ := p
      subst h
      rfl
    · simp [name?, h]
    · simp [name?, h]
    · simp [name?, h]

end Path

end TernBackend
