import Gazetteer.Convention.Tooling
import Gazetteer.Outline.Extraction
import Gazetteer.Project.Dependencies

/-!
# The technology of a project

The language is told by the source files, the tools by the dependencies.
-/

namespace Gazetteer

set_option autoImplicit false

namespace Declared

/-- The language of a project with the given source files. -/
def language (d : Declared) (files : List String) : String :=
  let dialects := files.filterMap dialectOf?
  let typed := (dialects.filter (·.isTyped)).length
  let plain := dialects.length - typed
  if 0 < typed && (plain ≤ typed || d.names.contains "typescript") then "TypeScript"
  else if 0 < plain || d.package.isSome then "JavaScript"
  else if d.hasCargo then "Rust"
  else "Unknown"

/-- The technology of a project with the given source files. -/
def techStack (d : Declared) (files : List String) : TechStack :=
  let tools := toolsOf d.names
  let labels (role : ToolRole) : List String := (tools.filter fun t => t.1 = role).map (·.2)
  { language := d.language files
    packageManager := d.packageManager?
    dependencies := d.dependencies
    devDependencies := d.devDependencies
    testingFramework := (labels .testFramework).head?
    bundler := (labels .bundler).head?
    linter := (labels .linter).head?
    formatter := (labels .formatter).head?
    frameworks := labels .framework
    buildTools := labels .buildTool }

end Declared

end Gazetteer
