import TypedId.Proofs.Names

/-!
Qualified names of declarations. Where no name is empty or holds a colon, the qualified name of a declaration reads as
the path to it with its own name at the end, so different declarations have different qualified names
(`paths_survive_text`).
-/
namespace TypedId

namespace ModulePath

theorem isName_of_mem_child {p : ModulePath} {name : String} (h : ∀ s ∈ p.segments, IsName s) (hname : IsName name) :
    ∀ s ∈ (p.child name).segments, IsName s := by
  intro s hs
  rcases List.mem_append.mp hs with hs | hs
  · exact h s hs
  · rw [List.mem_singleton.mp hs]
    exact hname

theorem child_inj {p q : ModulePath} {name other : String} : p.child name = q.child other ↔ p = q ∧ name = other := by
  constructor
  · intro h
    obtain ⟨hsegments, hname⟩ := List.append_inj' (congrArg segments h) rfl
    exact ⟨congrArg mk hsegments, List.singleton_inj.mp hname⟩
  · rintro ⟨rfl, rfl⟩
    rfl

theorem parse_qualify {p : ModulePath} {name : String} (h : ∀ s ∈ p.segments, IsName s) (hname : IsName name) :
    parse (p.qualify name) = p.child name := by
  rw [qualify_eq_joinNames]
  exact parse_joinNames (isName_of_mem_child h hname)

theorem qualify_inj {p q : ModulePath} {name other : String} (hp : ∀ s ∈ p.segments, IsName s) (hname : IsName name)
    (hq : ∀ s ∈ q.segments, IsName s) (hother : IsName other) :
    p.qualify name = q.qualify other ↔ p = q ∧ name = other := by
  constructor
  · intro h
    rw [← child_inj, ← parse_qualify hp hname, ← parse_qualify hq hother, h]
  · rintro ⟨rfl, rfl⟩
    rfl

end ModulePath

open ModulePath

/-- **Paths survive their text.** The path that is read from a text has no empty name, and when it is written out it
reads as the same path again. Where no name is empty or holds a colon, a path reads back as itself, a qualified name
reads as the path to the declaration with its name at the end, and different declarations have different qualified
names. Of all paths exactly the readable ones read back as themselves. -/
theorem paths_survive_text :
    (∀ s : String, parse (parse s).text = parse s ∧ ∀ name ∈ (parse s).segments, name ≠ "") ∧
    (∀ p : ModulePath, (∀ s ∈ p.segments, IsName s) →
      parse p.text = p ∧
      ∀ name, IsName name →
        parse (p.qualify name) = p.child name ∧
        ∀ (q : ModulePath) other, (∀ s ∈ q.segments, IsName s) → IsName other →
          (p.qualify name = q.qualify other ↔ p = q ∧ name = other)) ∧
    ∀ p : ModulePath, parse p.text = p ↔ p.IsReadable := by
  refine ⟨fun s => ?_, fun p hp => ?_, fun _ => parse_text_eq_iff⟩
  · exact ⟨parse_text_of_isReadable (isReadable_parse s), (isReadable_parse s).ne_empty⟩
  · refine ⟨parse_joinNames hp, fun name hname => ?_⟩
    exact ⟨parse_qualify hp hname, fun q other hq hother => qualify_inj hp hname hq hother⟩

/-- A module with a raw name: the text of the path to it, and that of the path to a declaration in it. -/
theorem paths_survive_text_shop :
    (∀ s ∈ ["shop", "r#type"], IsName s) ∧ IsName "Id" ∧
      parse "shop::r#type" = ⟨["shop", "r#type"]⟩ ∧
      parse "shop::r#type::Id" = ⟨["shop", "r#type", "Id"]⟩ ∧
      qualify ⟨["shop", "r#type"]⟩ "Id" ≠ qualify ⟨["shop"]⟩ "Id" := by
  have hmodules : ∀ s ∈ ["shop", "r#type"], IsName s := by decide
  have hname : IsName "Id" := by decide
  obtain ⟨hpath, hnames⟩ := paths_survive_text.2.1 ⟨["shop", "r#type"]⟩ hmodules
  obtain ⟨hqualified, happart⟩ := hnames "Id" hname
  refine ⟨hmodules, hname, hpath, hqualified, ?_⟩
  rw [Ne, happart ⟨["shop"]⟩ "Id" (by decide) hname]
  decide

end TypedId
