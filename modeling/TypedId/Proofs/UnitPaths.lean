import TypedId.Generate
import TypedId.Proofs.DiskWrite
import TypedId.Proofs.Encoding
import TypedId.Proofs.Generation
import TypedId.Proofs.Identifiers

/-!
The paths of units. Below the output directory a unit has directories with plain names, and then a file whose
name is plain but for its ending (`IsPlace`). Files end in one way, the files that are moved to them in
another and directories in neither, so no place of one kind is a place of another kind, whatever the
units are.
-/
namespace TypedId

open FileName

theorem Text.intercalate_eq_join {α : Type} (separator : α) (pieces : List (List α)) :
    [separator].intercalate pieces = join separator pieces := by
  induction pieces with
  | nil => rfl
  | cons piece rest ih =>
    cases rest with
    | nil => simp [join]
    | cons next others =>
      rw [List.intercalate_cons_cons, ih, join_cons separator piece (by simp)]
      simp

/-! ## Names -/

namespace FileName

/-- A name that is not empty and holds no point and no slash. -/
structure IsPlain (n : FileName) : Prop where
  ne_nil : n ≠ []
  no_dot : dot ∉ n
  no_slash : slash ∉ n

theorem IsPlain.isProper {n : FileName} (h : n.IsPlain) : n.IsProper where
  ne_nil := h.ne_nil
  no_slash := h.no_slash
  ne_here := by
    intro heq
    subst heq
    exact h.no_dot List.mem_cons_self
  ne_up := by
    intro heq
    subst heq
    exact h.no_dot List.mem_cons_self

theorem isPlain_encode {s : String} (h : TypedId.IsPlain s) : IsPlain (Text.encode s) where
  ne_nil hnil := h.1 (Text.encode_eq_nil hnil)
  no_dot hdot := h.2.1 (Text.mem_of_mem_encode (c := '.') (by decide) hdot)
  no_slash hslash := h.2.2 (Text.mem_of_mem_encode (c := '/') (by decide) hslash)

/-- The ending of the file of a unit. -/
def unitEnding : FileName := Text.encode ".g.rs"

/-- The ending of a file that is to be moved to the place of a unit. -/
def stagingEnding : FileName := Text.encode ".g.tmp"

theorem unitEnding_eq : unitEnding = [dot, 103, dot, 114, 115] := by decide

theorem stagingEnding_eq : stagingEnding = [dot, 103, dot, 116, 109, 112] := by decide

theorem isProper_append {own ending : FileName} (hne : 2 < ending.length) (hown : slash ∉ own)
    (hslash : slash ∉ ending) : IsProper (own ++ ending) where
  ne_nil h := by simp [(List.append_eq_nil_iff.mp h).2] at hne
  no_slash h := (List.mem_append.mp h).elim hown hslash
  ne_here h := by
    have := congrArg List.length h
    simp at this
    omega
  ne_up h := by
    have := congrArg List.length h
    simp at this
    omega

theorem isProper_unit {own : FileName} (h : own.IsPlain) : IsProper (own ++ unitEnding) :=
  isProper_append (by decide) h.no_slash (by decide)

theorem isProper_staging {own : FileName} (h : own.IsPlain) : IsProper (own ++ stagingEnding) :=
  isProper_append (by decide) h.no_slash (by decide)

/-- A name is cut at its last point, unless that comes first. -/
theorem splitAtDot?_append {before after : FileName} (hbefore : before ≠ []) (hafter : dot ∉ after)
    (hup : before ++ dot :: after ≠ [dot, dot]) : splitAtDot? (before ++ dot :: after) = some (before, after) := by
  have hlast : ((before ++ dot :: after).reverse.takeWhile (· != dot)).reverse = after := by
    rw [List.reverse_append, List.reverse_cons, List.append_assoc, List.takeWhile_append_of_pos,
      List.singleton_append, List.takeWhile_cons_of_neg (by simp), List.append_nil, List.reverse_reverse]
    intro b hb
    have hne : b ≠ dot := fun heq => hafter (heq ▸ List.mem_reverse.mp hb)
    simpa using hne
  have hempty : before.isEmpty = false := by simpa using hbefore
  have hnot : (before ++ dot :: after == [dot, dot]) = false := by simpa using hup
  have hfirst : (before ++ dot :: after).take ((before ++ dot :: after).length - after.length - 1) = before :=
    List.take_left' (by simp; omega)
  unfold splitAtDot?
  dsimp only
  rw [hlast, hfirst, hempty, hnot]
  rfl

theorem splitAtDot?_unit (own : FileName) :
    splitAtDot? (own ++ unitEnding) = some (own ++ [dot, 103], [114, 115]) := by
  rw [unitEnding_eq, show own ++ [dot, 103, dot, 114, 115] = (own ++ [dot, 103]) ++ dot :: [114, 115] by simp]
  refine splitAtDot?_append (by simp) (by decide) ?_
  exact fun h => absurd (congrArg List.length h) (by simp)

theorem splitAtDot?_staging (own : FileName) :
    splitAtDot? (own ++ stagingEnding) = some (own ++ [dot, 103], [116, 109, 112]) := by
  rw [stagingEnding_eq,
    show own ++ [dot, 103, dot, 116, 109, 112] = (own ++ [dot, 103]) ++ dot :: [116, 109, 112] by simp]
  refine splitAtDot?_append (by simp) (by decide) ?_
  exact fun h => absurd (congrArg List.length h) (by simp)

theorem stem_unit (own : FileName) : stem (own ++ unitEnding) = own ++ [dot, 103] := by
  rw [stem, splitAtDot?_unit]

/-- A file with the extension of those that are to be moved. -/
theorem staged_unit (own : FileName) :
    stem (own ++ unitEnding) ++ dot :: Disk.stagedExtension = own ++ stagingEnding := by
  rw [stem_unit, stagingEnding_eq, show Disk.stagedExtension = [116, 109, 112] by decide]
  simp

theorem staging_ne_unit (own own' : FileName) : own ++ stagingEnding ≠ own' ++ unitEnding := by
  intro h
  -- The two endings differ in their last byte already, whatever stands before them.
  have := congrArg List.getLast? h
  simp [unitEnding_eq, stagingEnding_eq] at this

end FileName

/-! ## Keys -/

namespace GeneratedUnit

/-- The names of a unit's path below the output directory. -/
def names (key : String) : List FileName :=
  (Text.split '/' key.toList).map fun piece => Text.encode (String.ofList piece)

theorem pathIn_eq_descend (key : String) (directory : DiskPath) :
    pathIn key directory = directory.descend (names key) := by
  rw [pathIn, DiskPath.descend, names, List.foldl_map]
  rfl

/-- Different keys have different names. -/
theorem names_inj {key key' : String} (h : names key = names key') : key = key' := by
  have hinj : ∀ x y : List Char, Text.encode (String.ofList x) = Text.encode (String.ofList y) → x = y :=
    fun x y hxy => String.ofList_injective (Text.encode_inj hxy)
  have hsplit := (List.map_inj_right hinj).mp h
  apply String.toList_inj.mp
  rw [← Text.join_split '/' key.toList, ← Text.join_split '/' key'.toList, hsplit]

/-- A key that leads through directories with plain names to a file with a plain name of its own. -/
structure IsPlace (key : String) (directories : List FileName) (own : FileName) : Prop where
  names_eq : names key = directories ++ [own ++ unitEnding]
  plain : ∀ n ∈ directories, n.IsPlain
  own_plain : own.IsPlain

end GeneratedUnit

namespace QualifiedType

/-- The pieces that a key is put together from. -/
def keyPieces (t : QualifiedType) : List (List Char) :=
  (t.modulePath.segments.map unraw ++ [unraw t.typeName ++ ".g.rs"]).map String.toList

theorem toList_unitKey (t : QualifiedType) : t.unitKey.toList = Text.join '/' t.keyPieces := by
  rw [unitKey, String.toList_intercalate]
  exact Text.intercalate_eq_join '/' _

theorem mem_keyPieces {t : QualifiedType} {piece : List Char} :
    piece ∈ t.keyPieces ↔
      (∃ s ∈ t.modulePath.segments, (unraw s).toList = piece) ∨ piece = (unraw t.typeName ++ ".g.rs").toList := by
  simp [keyPieces]

/-- Where no name holds a slash, cutting the key at its slashes gives the pieces back. -/
theorem split_unitKey {t : QualifiedType} (hmodules : ∀ s ∈ t.modulePath.segments, '/' ∉ s.toList)
    (hname : '/' ∉ t.typeName.toList) : Text.split '/' t.unitKey.toList = t.keyPieces := by
  rw [toList_unitKey, Text.split_join (by simp [keyPieces])]
  intro piece hpiece
  rcases mem_keyPieces.mp hpiece with ⟨s, hs, rfl⟩ | rfl
  · exact fun h => hmodules s hs (mem_of_mem_unraw h)
  · rw [String.toList_append, List.mem_append]
    intro hcase
    rcases hcase with h | h
    · exact hname (mem_of_mem_unraw h)
    · exact absurd h (by decide)

theorem names_unitKey {t : QualifiedType} (hmodules : ∀ s ∈ t.modulePath.segments, '/' ∉ s.toList)
    (hname : '/' ∉ t.typeName.toList) :
    GeneratedUnit.names t.unitKey =
      t.modulePath.segments.map (fun s => Text.encode (unraw s)) ++
        [Text.encode (unraw t.typeName) ++ unitEnding] := by
  rw [GeneratedUnit.names, split_unitKey hmodules hname]
  simp [keyPieces, unitEnding, Text.encode_append]

end QualifiedType

namespace GeneratedUnit

/-- A unit has its place if no name of a module on the way to its type holds a slash. -/
theorem isPlace_of_render {t : QualifiedType} {u : GeneratedUnit}
    (hmodules : ∀ s ∈ t.modulePath.segments, isIdentifier s = true ∧ '/' ∉ s.toList)
    (h : render t = .ok u) : ∃ directories own, IsPlace u.key directories own := by
  obtain ⟨n, hn, rfl⟩ := render_eq_ok.mp h
  have hspelling := Ident.spelling_of_ofSpelling? hn
  have hname : '/' ∉ t.typeName.toList := by
    rw [← hspelling]
    exact (Word.ident n).not_mem_spelling (by decide)
  refine ⟨_, _, QualifiedType.names_unitKey (fun s hs => (hmodules s hs).2) hname, ?_, ?_⟩
  · intro m hm
    obtain ⟨s, hs, rfl⟩ := List.mem_map.mp hm
    exact isPlain_encode (isPlain_unraw_of_isIdentifier (hmodules s hs).2 (hmodules s hs).1)
  · rw [← hspelling, n.unraw_spelling]
    exact isPlain_encode n.isPlain_text

namespace IsPlace

variable {key : String} {directories : List FileName} {own : FileName}

theorem isProper (h : IsPlace key directories own) : ∀ n ∈ names key, n.IsProper := by
  intro n hn
  rw [h.names_eq, List.mem_append, List.mem_singleton] at hn
  rcases hn with hn | rfl
  · exact (h.plain n hn).isProper
  · exact isProper_unit h.own_plain

theorem pieces (h : IsPlace key directories own) (base : DiskPath) :
    ∃ ps, (pathIn key base).pieces = ps ++ [own ++ unitEnding] ∧
      ((pathIn key base).withExtension Disk.stagedExtension).pieces = ps ++ [own ++ stagingEnding] := by
  have hproper := isProper_unit h.own_plain
  rw [pathIn_eq_descend, h.names_eq, DiskPath.descend_append]
  obtain ⟨ps, hps, _⟩ := DiskPath.pieces_join (base.descend directories) hproper.no_slash
  refine ⟨ps, hps, ?_⟩
  have hstaged := (isProper_staging h.own_plain).no_slash
  rw [← staged_unit] at hstaged ⊢
  exact DiskPath.pieces_withExtension hproper hps hstaged

theorem named (h : IsPlace key directories own) (base : DiskPath) :
    (pathIn key base).named = base.named ++ directories ++ [own ++ unitEnding] := by
  rw [pathIn_eq_descend, DiskPath.named_descend base (fun n hn => (h.isProper n hn).no_slash)
    fun n hn => (h.isProper n hn).ne_nil, h.names_eq, List.append_assoc]

theorem leadsTo (h : IsPlace key directories own) (base : DiskPath) :
    Disk.LeadsTo (pathIn key base) (base.named ++ directories) (own ++ unitEnding) := by
  obtain ⟨ps, hps, _⟩ := h.pieces base
  exact ⟨h.named base, DiskPath.getLast?_bytes hps (isProper_unit h.own_plain).ne_nil⟩

theorem leadsTo_staged (h : IsPlace key directories own) (base : DiskPath) :
    Disk.LeadsTo ((pathIn key base).withExtension Disk.stagedExtension) (base.named ++ directories)
      (own ++ stagingEnding) := by
  obtain ⟨ps, hps, hstaged⟩ := h.pieces base
  have hnamed := h.named base
  rw [DiskPath.named_of_pieces hps (isProper_unit h.own_plain).ne_nil] at hnamed
  refine ⟨?_, DiskPath.getLast?_bytes hstaged (isProper_staging h.own_plain).ne_nil⟩
  rw [DiskPath.named_of_pieces hstaged (isProper_staging h.own_plain).ne_nil,
    (List.append_inj' hnamed rfl).1]

theorem isAbsolute_pathIn (h : IsPlace key directories own) (base : DiskPath) :
    (pathIn key base).isAbsolute = base.isAbsolute := by
  rw [pathIn_eq_descend]
  exact DiskPath.isAbsolute_descend base fun n hn => (h.isProper n hn).no_slash

theorem isAbsolute_staged (h : IsPlace key directories own) (base : DiskPath) :
    ((pathIn key base).withExtension Disk.stagedExtension).isAbsolute = (pathIn key base).isAbsolute := by
  obtain ⟨ps, hps, hstaged⟩ := h.pieces base
  exact DiskPath.isAbsolute_of_pieces hstaged hps

theorem components (h : IsPlace key directories own) (base : DiskPath) :
    (pathIn key base).components = base.components ++ (names key).map .name := by
  rw [pathIn_eq_descend, DiskPath.components_descend base h.isProper]

end IsPlace

end GeneratedUnit

end TypedId
