import ArrowScript.Proofs.Scope.Linking
import Mathlib.Data.List.Pairwise

/-!
# References

A use that is linked to a declaration is recorded there, and a declaration has no other
references. A reference is recorded by its offset, so the lists tell which uses they mean if
the names of a program stand at different offsets.
-/

namespace ArrowScript

open ScopeEvent (accepted)

/-! ## References to a declaring node -/

namespace Resolver

variable {number : Site → Nat} {events : List LexicalEvent} {site : Site}

/-- A reference is a use that refers to the declaring node. -/
theorem refersTo_eq_some {event : LexicalEvent} {use : Identifier} :
    refersTo site event = some use ↔ event = .used use (some site) := by
  cases event with
  | declared declarer given => exact ⟨nofun, nofun⟩
  | used other found =>
    rw [refersTo]
    constructor
    · intro refers
      obtain ⟨same, equal⟩ := Option.ite_none_right_eq_some.mp refers
      rw [same, Option.some.inj equal]
    · rintro ⟨⟩
      exact if_pos rfl

/-- The references to a declaring node are some of the uses. -/
theorem references_sublist (events : List LexicalEvent) (site : Site) :
    (events.filterMap (refersTo site)).Sublist (events.filterMap ScopeEvent.use?) := by
  induction events with
  | nil => exact .refl _
  | cons event rest inductionHypothesis =>
    cases event with
    | declared declarer given => exact inductionHypothesis
    | used use found =>
      rw [List.filterMap_cons, List.filterMap_cons, refersTo]
      by_cases refers : found = some site
      · rw [if_pos refers]
        exact inductionHypothesis.cons_cons use
      · rw [if_neg refers]
        exact inductionHypothesis.cons use

/-- The references to a declaring node can be told from the links of the uses, if these had
none before. -/
theorem references_linked
    (unlinked : ∀ use found, .used use found ∈ events → use.declaration = none)
    (apart : ∀ use other, .used use (some other) ∈ events →
      number other = number site → other = site) :
    (((events.map (ScopeEvent.link number)).filterMap linked).filter
        (·.declaration = some (site.link number))).map (·.offset) =
      (events.filterMap (refersTo site)).map (·.offset) := by
  induction events with
  | nil => rfl
  | cons event rest inductionHypothesis =>
    have further := inductionHypothesis
      (fun use found among => unlinked use found (List.mem_cons_of_mem _ among))
      (fun use other among => apart use other (List.mem_cons_of_mem _ among))
    match event with
    | .declared declarer given => exact further
    | .used use none =>
      have unlinked := unlinked use none List.mem_cons_self
      rw [List.map_cons, List.filterMap_cons, List.filterMap_cons]
      change ((use :: _).filter _).map _ = _
      rw [List.filter_cons_of_neg (by rw [unlinked]; simp)]
      exact further
    | .used use (some other) =>
      rw [List.map_cons, List.filterMap_cons, List.filterMap_cons]
      change (({ use with declaration := some (other.link number) } :: _).filter _).map _ = _
      by_cases same : other = site
      · rw [List.filter_cons_of_pos (by rw [same]; exact decide_eq_true rfl), refersTo, if_pos
          (congrArg some same), List.map_cons, further]
        rfl
      · have differs : other.link number ≠ site.link number := fun equal =>
          same (apart use other List.mem_cons_self (congrArg Link.number equal))
        rw [List.filter_cons_of_neg (by simpa using differs), refersTo,
          if_neg fun equal => same (Option.some.inj equal)]
        exact further

/-- At different offsets there are different uses, which have been found differently. -/
theorem found_eq_of_offset (distinct : ((events.filterMap ScopeEvent.use?).map (·.offset)).Nodup)
    {use other : Identifier} {found refound : Option Site} (here : .used use found ∈ events)
    (there : .used other refound ∈ events) (same : use.offset = other.offset) :
    found = refound := by
  let Apart (one two : LexicalEvent) : Prop :=
    ∀ first, one.use? = some first → ∀ second, two.use? = some second →
      first.offset ≠ second.offset
  have symmetric : Std.Symm Apart :=
    ⟨fun _ _ apart first isFirst second isSecond equal =>
      apart second isSecond first isFirst equal.symm⟩
  have pairwise : events.Pairwise Apart := by
    rwa [List.Nodup, List.pairwise_map, List.pairwise_filterMap] at distinct
  by_contra differs
  have elsewhere : (.used use found : LexicalEvent) ≠ .used other refound :=
    fun equal => differs (ScopeEvent.used.inj equal).2
  exact pairwise.forall here there elsewhere use rfl other rfl same

end Resolver

namespace Program

open Resolver

/-- Accepted declaring nodes with the same number are the same. -/
theorem number_injective (program : Program) {one other : Site} (isOne : one ∈ program.sites)
    (isOther : other ∈ program.sites) (same : program.number one = program.number other) :
    one = other := by
  obtain ⟨first, here⟩ := List.getElem?_of_mem isOne
  obtain ⟨second, there⟩ := List.getElem?_of_mem isOther
  have numbered := program.scoping_numbered
  obtain rfl : first = second :=
    (numbered.at_place here).symm.trans (same.trans (numbered.at_place there))
  exact Option.some.inj (here.symm.trans there)

/-- The names of a program stand at different offsets, those that are used and those of the
constants. -/
def NamesApart (program : Program) : Prop :=
  (program.uses.map (·.offset) ++
    (program.declarers.filter (·.kind = .constant)).map (·.place)).Nodup

section Names

variable {program : Program}

/-- The uses of a program are those at its events. -/
theorem uses_eq (program : Program) :
    program.uses = program.scoping.filterMap ScopeEvent.use? :=
  (Statement.scopingOf_lists program.number 0 [] [] program.body).uses

/-- The declarations are those of the accepted declaring nodes. -/
theorem mem_declarations {declaration : Declaration} :
    declaration ∈ program.resolve.scopes.declarations ↔
      ∃ site ∈ program.sites, Resolver.declaration program.number program.scoping site =
        declaration := by
  rw [resolve_eq, List.mem_toArray, table, List.mem_map]
  rfl

/-- A reference is the offset of a use that refers to the declaring node. -/
theorem mem_references {site : Site} {offset : Int} :
    offset ∈ (Resolver.declaration program.number program.scoping site).references ↔
      ∃ use, .used use (some site) ∈ program.scoping ∧ use.offset = offset := by
  simp only [declaration, List.mem_map, List.mem_filterMap, refersTo_eq_some, exists_eq_right]

/-- A use is met by the walk. -/
theorem exists_found {use : Identifier} (isUse : use ∈ program.uses) :
    ∃ found, .used use found ∈ program.scoping := by
  rw [uses_eq] at isUse
  obtain ⟨event, among, isUse⟩ := List.mem_filterMap.mp isUse
  match event, isUse with
  | .used _ found, rfl => exact ⟨found, among⟩

/-- The uses stand at different offsets. -/
theorem NamesApart.uses (apart : program.NamesApart) :
    ((program.scoping.filterMap ScopeEvent.use?).map (·.offset)).Nodup := by
  rw [← uses_eq]
  exact (List.nodup_append.mp apart).1

/-- A use is reported exactly if it refers to no declaring node. -/
theorem NamesApart.undeclared_iff (apart : program.NamesApart) {use : Identifier}
    {found : Option Site} (here : .used use found ∈ program.scoping) :
    ⟨.undeclaredReference use.name, use.offset⟩ ∈ program.resolve.diagnostics ↔ found = none := by
  rw [resolve_eq]
  change _ ∈ (program.scoping.map _).filterMap problem ↔ _
  simp only [List.mem_filterMap, List.mem_map, exists_exists_and_eq_and]
  constructor
  · rintro ⟨event, among, reports⟩
    match event, reports with
    | .used other none, reports =>
      have same := congrArg (Option.map Diagnostic.offset) reports
      exact (found_eq_of_offset apart.uses among here (Option.some.inj same)).symm
    | .declared declarer none, reports =>
      have same := congrArg (Option.map Diagnostic.problem) reports
      change some declarer.duplicate = _ at same
      rw [Declarer.duplicate] at same
      split at same <;> exact nomatch same
  · rintro rfl
    exact ⟨_, here, rfl⟩

end Names

instance (program : Program) : Decidable program.NamesApart :=
  inferInstanceAs (Decidable (List.Nodup _))

/-- How the scopes, the links and the reference lists of a resolved program fit together. -/
structure ReferencesMatch (program : Program) : Prop where
  /-- There is one scope for the program and one for each function, nested and ordered as the
  functions are. -/
  scopes : program.resolve.scopes.root = program.scope
  /-- The first of each name in a level is linked to its own declaration, and a duplicate
  stays as it was. -/
  tree : program.resolve.program = program.linked
  /-- A declaration lists the uses that refer to it in the order of the source, and there is
  one for every declaring node that is the first of its name in its level. -/
  declarations : program.resolve.scopes.declarations.toList = program.sites.map fun site =>
    { link := site.link program.number
      references := (program.scoping.filterMap (refersTo site)).map (·.offset) }
  /-- Every use that is not reported refers to one of the declarations. -/
  found : ∀ use site, .used use (some site) ∈ program.scoping → site ∈ program.sites
  /-- No two declarations have the same link. -/
  apart : (program.resolve.scopes.declarations.toList.map (·.link)).Nodup
  /-- If no use came with a link, a declaration lists the uses that have its link now. -/
  linked : (∀ use ∈ program.uses, use.declaration = none) →
    ∀ declaration ∈ program.resolve.scopes.declarations, declaration.references =
      (program.resolve.program.uses.filter (·.declaration = some declaration.link)).map (·.offset)
  /-- A use that is not reported is listed by exactly one declaration. -/
  once : program.NamesApart → ∀ use ∈ program.uses,
    ⟨.undeclaredReference use.name, use.offset⟩ ∉ program.resolve.diagnostics →
      ∃! declaration, declaration ∈ program.resolve.scopes.declarations ∧
        use.offset ∈ declaration.references
  /-- A use that is reported is listed by no declaration. -/
  reported : program.NamesApart → ∀ use ∈ program.uses,
    ⟨.undeclaredReference use.name, use.offset⟩ ∈ program.resolve.diagnostics →
      ∀ declaration ∈ program.resolve.scopes.declarations, use.offset ∉ declaration.references
  /-- No use is listed twice. -/
  distinct : program.NamesApart →
    ∀ declaration ∈ program.resolve.scopes.declarations, declaration.references.Nodup
  /-- The name of a constant is not listed where it is declared. -/
  constants : program.NamesApart → ∀ declarer ∈ program.declarers, declarer.kind = .constant →
    ∀ declaration ∈ program.resolve.scopes.declarations, declarer.place ∉ declaration.references

/-- Links and reference lists match both ways. -/
theorem references_match (program : Program) : program.ReferencesMatch := by
  have listed (use : Identifier) (site : Site) (here : .used use (some site) ∈ program.scoping) :
      site ∈ program.sites := program.resolve_reached.2.used use site here
  refine ⟨?_, ?_, ?_, listed, ?_, ?_, ?_, ?_, ?_, ?_⟩
  · rw [resolve_eq]
  · rw [resolve_eq]
  · rw [resolve_eq]
    rfl
  · have numbers : (program.sites.map (Site.link program.number)).map (·.number) =
        List.range program.sites.length :=
      (List.map_map ..).trans program.scoping_numbered
    have links : program.resolve.scopes.declarations.toList.map (·.link) =
        program.sites.map (Site.link program.number) := by
      rw [resolve_eq]
      exact List.map_map ..
    rw [links]
    exact List.Pairwise.of_map (·.number) (fun _ _ apart same => apart (congrArg _ same))
      (numbers ▸ List.nodup_range)
  · intro unlinked declaration isDeclared
    obtain ⟨site, isSite, rfl⟩ := mem_declarations.mp isDeclared
    have uses := (Statement.scopingOf_lists program.number 0 [] [] program.body).linked
    rw [resolve_eq]
    change _ = (program.linked.uses.filter _).map _
    rw [show program.linked.uses = _ from uses]
    refine (references_linked (fun use found among => ?_) fun use other among same => ?_).symm
    · exact unlinked use (program.uses_eq ▸ List.mem_filterMap.mpr ⟨_, among, rfl⟩)
    · exact program.number_injective (listed use other among) isSite same
  · intro apart use isUse quiet
    obtain ⟨found, here⟩ := exists_found isUse
    rw [apart.undeclared_iff here] at quiet
    obtain ⟨site, rfl⟩ := Option.ne_none_iff_exists'.mp quiet
    refine ⟨_, ⟨mem_declarations.mpr ⟨site, listed use site here, rfl⟩,
      mem_references.mpr ⟨use, here, rfl⟩⟩, ?_⟩
    rintro _ ⟨isDeclared, listing⟩
    obtain ⟨other, isSite, rfl⟩ := mem_declarations.mp isDeclared
    obtain ⟨another, there, same⟩ := mem_references.mp listing
    rw [Option.some.inj (found_eq_of_offset apart.uses there here same)]
  · intro apart use isUse reported declaration isDeclared listing
    obtain ⟨found, here⟩ := exists_found isUse
    obtain rfl := (apart.undeclared_iff here).mp reported
    obtain ⟨site, isSite, rfl⟩ := mem_declarations.mp isDeclared
    obtain ⟨another, there, same⟩ := mem_references.mp listing
    exact nomatch found_eq_of_offset apart.uses there here same
  · intro apart declaration isDeclared
    obtain ⟨site, isSite, rfl⟩ := mem_declarations.mp isDeclared
    exact apart.uses.sublist ((references_sublist program.scoping site).map _)
  · intro apart declarer isDeclarer constant declaration isDeclared listing
    obtain ⟨site, isSite, rfl⟩ := mem_declarations.mp isDeclared
    obtain ⟨use, there, same⟩ := mem_references.mp listing
    have isUse : use ∈ program.uses :=
      program.uses_eq ▸ List.mem_filterMap.mpr ⟨_, there, rfl⟩
    refine (List.nodup_append.mp apart).2.2 use.offset (List.mem_map_of_mem isUse) declarer.place
      (List.mem_map_of_mem (List.mem_filter.mpr ⟨isDeclarer, decide_eq_true constant⟩)) same

/-- A parameter, a constant behind it with the same name, and a use of the name before the
constant. -/
example :
    let inner : List Statement :=
      [.constant 19 { offset := 25, name := "a" } none (.identifier { offset := 29, name := "a" })]
    let outer : Expression :=
      .arrow 10 [{ offset := 11, name := "a" }] none { offset := 17, statements := inner }
    let program : Program := { body := [.constant 0 { offset := 6, name := "f" } none outer] }
    program.NamesApart ∧
      program.resolve.scopes.declarations.toList.map (·.references) = [[29], []] ∧
      program.resolve.diagnostics = [⟨.duplicateDeclaration "a", 25⟩] := by
  decide

end Program

end ArrowScript
