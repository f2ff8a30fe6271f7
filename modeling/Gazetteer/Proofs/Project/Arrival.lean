import Gazetteer.Proofs.Manifest.Reload
import Gazetteer.Proofs.Project.Extracts

/-!
# In which order files come

A survey does not tell in which order its files came: what was extracted is brought into the order of the paths
(`Extracts.ofFiles_perm`), languages are counted, and entry files are only looked up among the paths.  So surveys of the
same files make the same content for every manifest, and with it the same region (`Survey.regions_of_perm`).
-/

namespace Gazetteer

set_option autoImplicit false

variable {paths paths' : List String}

/-! ## The paths alone -/

theorem contains_perm (perm : paths.Perm paths') : paths'.contains = paths.contains :=
  funext fun _ => perm.contains_eq.symm

theorem Declared.techStack_perm (d : Declared) (perm : paths.Perm paths') : d.techStack paths' = d.techStack paths := by
  have dialects := perm.filterMap dialectOf?
  have typed := (dialects.filter (·.isTyped)).length_eq
  have language : d.language paths' = d.language paths := by rw [language, language, dialects.length_eq, typed]
  rw [techStack, techStack, language]

theorem Surface.make_perm (package : Option Package) (exports : List Export) (perm : paths.Perm paths') :
    make package paths' exports = make package paths exports := by
  have resolve : resolve? paths' = resolve? paths := by
    funext declared
    rw [resolve?, resolve?, contains_perm perm]
  have resolved (declared : List String) : resolved paths' declared = resolved paths declared := by
    rw [Surface.resolved, Surface.resolved, resolve, contains_perm perm]
  rw [make, make, resolve]
  simp only [resolved]

/-! ## Surveys -/

namespace Survey

variable {rules : ImportRules} {declared : Declared} {files files' : List SourceFile}

theorem content_perm (perm : files.Perm files') (distinct : (files.map (·.relative)).Nodup) (k : Kind) :
    (ofFiles rules declared files').content k = (ofFiles rules declared files).content k := by
  have extracts : Extracts.ofFiles rules files' = Extracts.ofFiles rules files := Extracts.ofFiles_perm perm distinct
  rw [ofFiles, ofFiles, extracts]
  cases k with
  | techStack => exact congrArg Content.techStack (declared.techStack_perm (perm.map _))
  | apiSurface => exact congrArg Content.apiSurface (Surface.make_perm declared.package _ (perm.map _))
  | symbols | exports | imports | patterns => rfl

/-- Whatever the order in which files with different paths come: what is extracted from them is the same, and so are the
region and the key index for every manifest. -/
theorem regions_of_perm (perm : files.Perm files') (distinct : (files.map (·.relative)).Nodup) :
    Extracts.ofFiles rules files' = Extracts.ofFiles rules files ∧
      (Extracts.ofFiles rules files').signals = (Extracts.ofFiles rules files).signals ∧
      ∀ k, ∃ region, AutoRegion.ofContent ((ofFiles rules declared files).content k) = .ok region ∧
        AutoRegion.ofContent ((ofFiles rules declared files').content k) = .ok region ∧
        (ofFiles rules declared files').keyIndex k = (ofFiles rules declared files).keyIndex k := by
  have extracts : Extracts.ofFiles rules files' = Extracts.ofFiles rules files := Extracts.ofFiles_perm perm distinct
  refine ⟨extracts, congrArg Extracts.signals extracts, fun k => ?_⟩
  have content : (ofFiles rules declared files').content k = (ofFiles rules declared files).content k :=
    content_perm perm distinct k
  obtain ⟨region, made⟩ := AutoRegion.exists_ofContent ((ofFiles rules declared files).content k)
  refine ⟨region, made, ?_, congrArg Content.keyIndex content⟩
  rw [content]
  exact made

/-- Two files of different languages, swapped. -/
theorem regions_of_perm_swapped :
    ([⟨["b.ts"], []⟩, ⟨["a.js"], []⟩] : List SourceFile).map (·.relative) = ["b.ts", "a.js"] ∧
      Extracts.ofFiles ⟨none, []⟩ [⟨["a.js"], []⟩, ⟨["b.ts"], []⟩] =
        Extracts.ofFiles ⟨none, []⟩ [⟨["b.ts"], []⟩, ⟨["a.js"], []⟩] ∧
      (ofFiles ⟨none, []⟩ {} [⟨["a.js"], []⟩, ⟨["b.ts"], []⟩]).keyIndex .techStack =
        (ofFiles ⟨none, []⟩ {} [⟨["b.ts"], []⟩, ⟨["a.js"], []⟩]).keyIndex .techStack := by
  have paths : ([⟨["b.ts"], []⟩, ⟨["a.js"], []⟩] : List SourceFile).map (·.relative) = ["b.ts", "a.js"] := by
    decide +kernel
  have same := @regions_of_perm ⟨none, []⟩ {} _ _
    (List.Perm.swap ⟨["a.js"], []⟩ ⟨["b.ts"], []⟩ []) (by rw [paths]; decide)
  obtain ⟨region, -, -, index⟩ := same.2.2 .techStack
  exact ⟨paths, same.1, index⟩

end Survey

end Gazetteer
