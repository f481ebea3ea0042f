import TypedId.Run
import TypedId.Proofs.DiskWalk
import TypedId.Proofs.Encoding
import TypedId.Proofs.Generation
import TypedId.Proofs.Sites

/-!
The names of modules hold no slash. Those around a file are read off names on the disk, those inside it are
words of its text, and so are those of every candidate that is found on a disk
(`no_slash_of_mem_scan`).
-/
namespace TypedId

open FileName

/-! ## Modules around a file -/

theorem FileName.no_slash_stem {n : FileName} (h : slash ∉ n) : slash ∉ stem n := by
  unfold stem
  split
  · next before after hsplit =>
    intro hslash
    unfold splitAtDot? at hsplit
    dsimp only at hsplit
    split at hsplit
    · cases hsplit
    · cases hsplit
      exact h (List.mem_of_mem_take hslash)
  · exact h

theorem Text.no_slash_decodeLossy {bytes : List UInt8} (h : slash ∉ bytes) : '/' ∉ (decodeLossy bytes).toList :=
  fun hslash => h (subset_of_mem_decodeLossy hslash (by decide) slash (by decide))

theorem ModulePath.no_slash_segmentOf {s : String} (h : '/' ∉ s.toList) : '/' ∉ (segmentOf s).toList := by
  unfold segmentOf
  split
  · rw [String.toList_append, List.mem_append, not_or]
    exact ⟨by decide, h⟩
  · exact h

theorem ModulePath.no_slash_of_ofComponents? {components : List Component} {p : ModulePath}
    (hnames : ∀ n, Component.name n ∈ components → slash ∉ n) (h : ofComponents? components = some p) :
    ∀ s ∈ p.segments, '/' ∉ s.toList := by
  unfold ofComponents? at h
  split at h
  · next file hlast =>
    cases h
    have hfile : slash ∉ stem file := no_slash_stem (hnames file (List.mem_of_getLast? hlast))
    intro s hs
    rcases List.mem_append.mp hs with hs | hs
    · obtain ⟨n, hn, rfl⟩ := List.mem_map.mp hs
      obtain ⟨c, hc, hname⟩ := List.mem_filterMap.mp (List.dropLast_subset _ hn)
      cases c with
      | name n' =>
        cases hname
        exact no_slash_segmentOf (Text.no_slash_decodeLossy (hnames n hc))
      | _ => cases hname
    · split at hs
      · cases hs
      · rw [List.mem_singleton.mp hs]
        exact no_slash_segmentOf (Text.no_slash_decodeLossy hfile)
  · cases h

theorem DiskPath.no_slash_of_mem_components {p : DiskPath} {n : FileName} (h : .name n ∈ p.components) :
    slash ∉ n := by
  have hpiece : ∀ piece, component? piece = some (.name n) → piece = n := by
    intro piece hc
    unfold component? at hc
    split at hc
    · cases hc
    · split at hc
      · cases hc
      · cases hc
        rfl
  have hfound : ∀ pieces : List FileName, Component.name n ∈ pieces.filterMap component? → n ∈ pieces := by
    intro pieces hmem
    obtain ⟨piece, hp, hc⟩ := List.mem_filterMap.mp hmem
    exact hpiece piece hc ▸ hp
  apply no_slash_of_mem_pieces (p := p)
  unfold components at h
  split at h
  · rcases List.mem_cons.mp h with h | h
    · cases h
    · exact hfound _ h
  · split at h
    · next first rest heq =>
      rw [heq]
      rcases List.mem_append.mp h with h | h
      · split at h
        · cases List.mem_singleton.mp h
        · exact List.mem_cons.mpr (Or.inl (hpiece first (Option.mem_toList.mp h)).symm)
      · exact List.mem_cons_of_mem first (hfound rest h)
    · cases h

namespace Disk

theorem IsTree.no_slash {d : Disk} (h : d.IsTree) {l : Location} (hl : d.entry? l ≠ none) :
    ∀ n ∈ l, slash ∉ n := by
  -- From the innermost name outwards: what something stands in stands somewhere itself.
  generalize hlength : l.length = length
  induction length generalizing l with
  | zero => simp [List.length_eq_zero_iff.mp hlength]
  | succ length ih =>
    have hne : l ≠ [] := List.ne_nil_of_length_eq_add_one hlength
    obtain ⟨around, n, rfl⟩ := (List.eq_nil_or_concat l).resolve_left hne
    rw [List.concat_eq_append] at hl hlength ⊢
    have haround : d.entry? around ≠ none := by
      rw [isDirectoryAt_iff.mp (h.parent around n hl)]
      simp
    intro m hm
    rcases List.mem_append.mp hm with hm | hm
    · exact ih haround (by simpa using hlength) m hm
    · rw [List.mem_singleton.mp hm]
      exact h.name around n hl

theorem no_slash_of_mem_steps {p : DiskPath} : ∀ n ∈ steps p, slash ∉ n := by
  intro n hn
  rcases List.mem_append.mp hn with hn | hn
  · exact DiskPath.no_slash_of_mem_named hn
  · split at hn
    · rw [List.mem_singleton.mp hn]
      decide
    · cases hn

theorem no_slash_of_walkSteps {d : Disk} {followLast : Bool}
    {follow : Location → DiskPath → List FileName → Except DiskError Location}
    (hfollow : ∀ here target rest l, (∀ n ∈ here, slash ∉ n) → (∀ n ∈ rest, slash ∉ n) →
      follow here target rest = .ok l → ∀ n ∈ l, slash ∉ n)
    {here l : Location} {todo : List FileName} (hhere : ∀ n ∈ here, slash ∉ n) (htodo : ∀ n ∈ todo, slash ∉ n)
    (h : d.walkSteps followLast follow here todo = .ok l) : ∀ n ∈ l, slash ∉ n := by
  induction todo generalizing here with
  | nil =>
    cases h
    exact hhere
  | cons piece rest ih =>
    have hrest := fun n hn => htodo n (List.mem_cons_of_mem piece hn)
    have hnext : ∀ n ∈ here ++ [piece], slash ∉ n := by
      intro n hn
      rcases List.mem_append.mp hn with hn | hn
      · exact hhere n hn
      · exact htodo n (List.mem_cons.mpr (Or.inl (List.mem_singleton.mp hn)))
    rw [walkSteps] at h
    split at h
    · cases h
    · split at h
      · exact ih hhere hrest h
      · split at h
        · exact ih (fun n hn => hhere n (List.dropLast_subset here hn)) hrest h
        · split at h
          · cases h
          · split at h
            · cases h
            · split at h
              · cases h
                exact hnext
              · exact hfollow here _ rest l hhere hrest h
            · exact ih hnext hrest h

/-- A walk comes by no name with a slash, links on the way included. -/
theorem no_slash_of_walk {d : Disk} {followLast : Bool} {links : Nat} {here l : Location}
    {todo : List FileName} (hhere : ∀ n ∈ here, slash ∉ n) (htodo : ∀ n ∈ todo, slash ∉ n)
    (h : d.walk followLast links here todo = .ok l) : ∀ n ∈ l, slash ∉ n := by
  induction links generalizing here l todo with
  | zero => exact no_slash_of_walkSteps (fun _ _ _ _ _ _ hnone => by cases hnone) hhere htodo h
  | succ links ih =>
    refine no_slash_of_walkSteps (fun here target rest l hhere hrest hfollow => ?_) hhere htodo h
    split at hfollow
    · cases hfollow
    · refine ih (fun n hn => ?_) (fun n hn => ?_) hfollow
      · unfold start at hn
        split at hn
        · cases hn
        · exact hhere n hn
      · exact (List.mem_append.mp hn).elim (no_slash_of_mem_steps n) (hrest n)

theorem no_slash_of_resolve {d : Disk} (htree : d.IsTree) {p : DiskPath} {l : Location}
    (h : d.resolve true p = .ok l) : ∀ n ∈ l, slash ∉ n := by
  unfold resolve at h
  split at h
  · cases h
  · refine no_slash_of_walk (fun n hn => ?_) no_slash_of_mem_steps h
    unfold start at hn
    split at hn
    · cases hn
    · refine htree.no_slash ?_ n hn
      rw [isDirectoryAt_iff.mp htree.workplace]
      simp

theorem no_slash_of_moduleOf? {d : Disk} (htree : d.IsTree) {root file : DiskPath}
    {p : ModulePath} (h : d.moduleOf? root file = some p) : ∀ s ∈ p.segments, '/' ∉ s.toList := by
  obtain ⟨components, hrelative, hp⟩ := Option.bind_eq_some_iff.mp h
  refine ModulePath.no_slash_of_ofComponents? ?_ hp
  intro n hn
  unfold relative? at hrelative
  split at hrelative
  · next below hbelow =>
    cases hrelative
    unfold DiskPath.below? at hbelow
    split at hbelow
    · cases hbelow
      exact DiskPath.no_slash_of_mem_components (List.mem_of_mem_drop hn)
    · cases hbelow
  · split at hrelative
    · next base place hbase hplace =>
      split at hrelative
      · cases hrelative
        have hmem := List.mem_of_mem_drop hn
        -- The file is looked at by its own place, so the names are those on the disk.
        unfold canonical at hplace
        cases hresolve : d.resolve true file with
        | error cause =>
          rw [hresolve] at hplace
          cases hplace
        | ok l =>
          rw [hresolve] at hplace
          cases hplace
          rcases List.mem_cons.mp hmem with hmem | hmem
          · cases hmem
          · obtain ⟨m, hm, heq⟩ := List.mem_map.mp hmem
            cases heq
            exact no_slash_of_resolve htree hresolve n hm
      · cases hrelative
    · cases hrelative

theorem no_slash_of_readSources {d : Disk} (htree : d.IsTree) {files : List FoundFile}
    {sources : List SourceText} (h : (d.readSources files).result = .ok sources) :
    ∀ source ∈ sources, ∀ s ∈ source.modulePath.segments, '/' ∉ s.toList := by
  induction files generalizing sources with
  | nil =>
    cases h
    intro source hsource
    cases hsource
  | cons f rest ih =>
    rw [readSources] at h
    obtain ⟨first, hfirst, h⟩ := Outcome.result_bind_eq_ok.mp h
    obtain ⟨more, hmore, h⟩ := Outcome.result_bind_eq_ok.mp h
    cases h
    intro source hsource
    rcases List.mem_cons.mp hsource with rfl | hsource
    · unfold readSource at hfirst
      split at hfirst
      · cases hfirst
      · next p hp =>
        rw [Outcome.result_bind_of_ok (Outcome.result_tell _)] at hfirst
        split at hfirst
        · cases hfirst
          exact no_slash_of_moduleOf? htree hp
        · cases hfirst
    · exact ih hmore source hsource

end Disk

/-! ## Modules inside a file -/

theorem Reaches.no_slash {items : List Item} {address : Address} {site : Site}
    (h : Reaches items address site) : ∀ s ∈ site.names, '/' ∉ s.toList := by
  induction h with
  | here => simp
  | @inside _ _ _ name _ _ _ _ ih =>
    intro s hs
    rcases List.mem_cons.mp hs with rfl | hs
    · exact name.not_mem_spelling (by decide)
    · exact ih s hs

theorem no_slash_of_scanSource {source : SourceText} (hsource : ∀ s ∈ source.modulePath.segments, '/' ∉ s.toList)
    {candidates : List Candidate} (h : (scanSource source).result = .ok candidates) {c : Candidate}
    (hc : c ∈ candidates) : ∀ s ∈ c.modulePath.segments, '/' ∉ s.toList := by
  cases htree : SourceTree.ofText? source.text with
  | none =>
    rw [scanSource, htree] at h
    cases h
  | some tree =>
    rw [scanSource_of_ofText? source htree, scanItems_result] at h
    cases h
    obtain ⟨⟨address, site⟩, hsite, rfl⟩ := List.mem_map.mp hc
    intro s hs
    rcases List.mem_append.mp hs with hs | hs
    · exact hsource s hs
    · exact (mem_extensibleSites.mp hsite).1.no_slash s hs

theorem no_slash_of_scanAll {sources : List SourceText}
    (hsources : ∀ source ∈ sources, ∀ s ∈ source.modulePath.segments, '/' ∉ s.toList)
    {candidates : List Candidate} (h : (scanAll sources).result = .ok candidates) :
    ∀ c ∈ candidates, ∀ s ∈ c.modulePath.segments, '/' ∉ s.toList := by
  induction sources generalizing candidates with
  | nil =>
    cases h
    intro c hc
    cases hc
  | cons source rest ih =>
    have hrest := fun other hother => hsources other (List.mem_cons_of_mem source hother)
    rw [scanAll] at h
    cases hscan : (scanSource source).result with
    | error e =>
      simp only [hscan] at h
      rw [Outcome.result_bind_of_ok (Outcome.result_tell _)] at h
      exact ih hrest h
    | ok found =>
      simp only [hscan] at h
      rw [Outcome.result_bind_of_ok (Outcome.result_tell _)] at h
      obtain ⟨more, hmore, h⟩ := Outcome.result_bind_eq_ok.mp h
      cases h
      intro c hc
      rcases List.mem_append.mp hc with hc | hc
      · exact no_slash_of_scanSource (hsources source List.mem_cons_self) hscan hc
      · exact ih hrest hmore c hc

/-- No name of a module on the way to a candidate holds a slash. -/
theorem Disk.no_slash_of_mem_scan {d : Disk} (htree : d.IsTree) {inputs : Inputs}
    {candidates : List Candidate} (h : (d.scan inputs).result = .ok candidates) :
    ∀ c ∈ candidates, ∀ s ∈ c.modulePath.segments, '/' ∉ s.toList := by
  obtain ⟨sources, hsources, h⟩ := Outcome.result_bind_eq_ok.mp h
  refine no_slash_of_scanAll ?_ h
  unfold discover at hsources
  split at hsources
  · exact no_slash_of_readSources htree hsources
  · cases hsources

end TypedId
