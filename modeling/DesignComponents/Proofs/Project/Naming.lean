import DesignComponents.Proofs.Identifier
import DesignComponents.Proofs.Project.Assemble

/-! Names in paths. Whatever a component is called, each file of its project has a path that leads down
from where it begins, name by name: it neither starts at the root nor stays or goes up on its way. -/

set_option autoImplicit false

namespace DesignComponents

open Text Identifier

namespace Disk.Path

/-- A path from where it begins, with no piece that is empty or a name of points. -/
structure Down (text : String) : Prop where
  relative : isAbsolute text = false
  pieces : ∀ piece ∈ pieces text, piece ≠ "" ∧ piece ≠ "." ∧ piece ≠ ".."

instance (text : String) : Decidable (Down text) :=
  decidable_of_iff (isAbsolute text = false ∧
      ∀ piece ∈ Path.pieces text, piece ≠ "" ∧ piece ≠ "." ∧ piece ≠ "..")
    ⟨fun both => ⟨both.1, both.2⟩, fun down => ⟨down.relative, down.pieces⟩⟩

/-- A path from the root has an empty piece, which stands before its first slash. -/
theorem empty_piece {text : String} (absolute : isAbsolute text = true) : "" ∈ pieces text := by
  obtain ⟨rest, written⟩ := startsWith_iff.1 absolute
  rw [pieces, splitOn_eq, ← written, List.singleton_append, List.splitOn_cons_eq_if_modifyHead]
  exact List.mem_cons_self

theorem down_of_pieces {text : String}
    (each : ∀ piece ∈ pieces text, piece ≠ "" ∧ piece ≠ "." ∧ piece ≠ "..") : Down text :=
  ⟨Bool.eq_false_iff.2 fun absolute => (each "" (empty_piece absolute)).1 rfl, each⟩

end Disk.Path

namespace Project

open Component Disk.Path

theorem Location.Proper.down {l : Location} (proper : l.Proper) : Down l.path := by
  have unbroken : ∀ n ∈ l.folder ++ [l.file], '/' ∉ n.toList := by
    intro n mem
    rcases List.mem_append.1 mem with mem | mem
    · exact (proper.folders n mem).2.1
    · rw [List.mem_singleton.1 mem]
      exact proper.file_unbroken
  refine down_of_pieces fun piece mem => ?_
  rw [path, pieces_intercalate unbroken (by simp)] at mem
  rcases List.mem_append.1 mem with mem | mem
  · obtain ⟨some_name, -, no_point⟩ := proper.folders piece mem
    refine ⟨some_name, ?_, ?_⟩ <;>
      · rintro rfl
        exact no_point (by decide)
  · -- The file is a step down, and neither point is.
    obtain ⟨some_name, down⟩ := proper.push_file []
    rw [List.mem_singleton.1 mem]
    refine ⟨some_name, fun same => ?_, fun same => ?_⟩ <;>
      · rw [same] at down
        exact absurd down (by decide)

theorem down_settings : ∀ key ∈ "package.json" :: settingNames, Down key := by
  decide +kernel

/-- The paths of all that an adapted component is assembled from lead down. -/
theorem Adapted.down {jsx css name : String} {config : Config} {c : Component}
    (adapted : Adapted jsx css config name c) (plain : Signless name.toList) :
    ∀ e ∈ entriesOf c config name, Down e.1 := by
  intro e mem
  rcases List.mem_append.1 mem with own | setting
  · have located : e.1 ∈ (locations config name).map Location.path := by
      rw [← adapted.paths plain]
      exact List.mem_map_of_mem own
    obtain ⟨l, held, same⟩ := List.mem_map.1 located
    rw [← same]
    exact (proper_locations plain l held).down
  · obtain ⟨m, made, -⟩ := adapted.manifest
    rw [made, Option.toList_some, List.flatMap_singleton] at setting
    exact down_settings e.1 ((adapted.settings made).2 e.1 (List.mem_map_of_mem setting))

/-- A project is assembled from a named component, and all its paths lead down. -/
theorem assemble_down (jsx css : String) {config : Config} {name : String}
    (named : config.name = .ok name) (planned : Layout) : ∃ c made,
    adapt jsx css config = .ok c ∧ assemble c planned config = .ok made ∧
      ∀ f ∈ made.files, Down f.path := by
  obtain ⟨c, adapts, adapted⟩ := adapt_some jsx css named
  obtain ⟨made, assembles, files, -⟩ := assemble_some named adapted adapted.textOr_code planned
  refine ⟨c, made, adapts, assembles, fun f mem => ?_⟩
  rw [files] at mem
  obtain ⟨e, held, rfl⟩ := List.mem_map.1 mem
  exact adapted.down (signless_of_named named) e held

/-- A component may be called by any text or by none. -/
def called (config : Config) (text : Option String) : Config :=
  { config with componentName := text.elim .null .str }

/-- Called by any text, or by none, a component has a name that is a capital with letters and digits behind
it, and its own component name. Its slug is words of small letters and digits between hyphens, and the paths
of the project that is assembled from it lead down, as those of any project do that is assembled. -/
theorem names_safe (text : Option String) :
    let name := componentName (text.getD "")
    (IsComponentName name.toList ∧ componentName name = name ∧ IsSlug (slug name).toList) ∧
      ∀ (jsx css : String) (config : Config) (planned : Layout),
        (∃ c made, (called config text).name = .ok name ∧ adapt jsx css (called config text) = .ok c ∧
          assemble c planned (called config text) = .ok made ∧ ∀ f ∈ made.files, Down f.path) ∧
        ∀ c made, adapt jsx css config = .ok c → assemble c planned config = .ok made →
          ∀ f ∈ made.files, Down f.path := by
  intro name
  refine ⟨componentName_shape _, fun jsx css config planned => ⟨?_, ?_⟩⟩
  · have named : (called config text).name = .ok name := by
      cases text <;> rfl
    obtain ⟨c, made, adapts, assembles, down⟩ := assemble_down jsx css named planned
    exact ⟨c, made, named, adapts, assembles, down⟩
  · intro c made adapts assembles
    cases named : config.name with
    | error fault =>
      rw [adapt, named] at adapts
      cases adapts
    | ok name =>
      obtain ⟨c', made', adapts', assembles', down⟩ := assemble_down jsx css named planned
      obtain rfl := Except.ok.inj (adapts.symm.trans adapts')
      obtain rfl := Except.ok.inj (assembles.symm.trans assembles')
      exact down

end Project

end DesignComponents
