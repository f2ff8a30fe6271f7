import Gazetteer.Record.Finding

/-!
# Tools that dependencies stand for

A table of package names and the tools they belong to.  The table is read in order, so of two tools with the
same role the earlier entry comes first.
-/

namespace Gazetteer

set_option autoImplicit false

/-- What a tool does in a project. -/
inductive ToolRole
  | testFramework
  | bundler
  | linter
  | formatter
  | framework
  | buildTool
  | stateLibrary
  | httpClient
  deriving Repr, DecidableEq

/-- A tool and the packages that belong to it. -/
structure DependencyRule where
  role : ToolRole
  label : String
  packages : List String
  deriving Repr, DecidableEq

namespace DependencyRule

/-- All tools. -/
def all : List DependencyRule :=
  [⟨.testFramework, "vitest", ["vitest"]⟩,
    ⟨.testFramework, "jest", ["jest", "ts-jest", "@jest/core"]⟩,
    ⟨.testFramework, "mocha", ["mocha"]⟩, ⟨.testFramework, "ava", ["ava"]⟩,
    ⟨.testFramework, "jasmine", ["jasmine"]⟩, ⟨.testFramework, "playwright", ["@playwright/test"]⟩,
    ⟨.testFramework, "cypress", ["cypress"]⟩, ⟨.bundler, "vite", ["vite"]⟩,
    ⟨.bundler, "webpack", ["webpack"]⟩, ⟨.bundler, "rollup", ["rollup"]⟩,
    ⟨.bundler, "esbuild", ["esbuild"]⟩, ⟨.bundler, "parcel", ["parcel"]⟩,
    ⟨.bundler, "rspack", ["@rspack/core", "@rspack/cli"]⟩, ⟨.bundler, "tsup", ["tsup"]⟩,
    ⟨.linter, "eslint", ["eslint"]⟩, ⟨.linter, "biome", ["@biomejs/biome"]⟩,
    ⟨.linter, "oxlint", ["oxlint"]⟩, ⟨.linter, "tslint", ["tslint"]⟩,
    ⟨.linter, "standard", ["standard"]⟩, ⟨.formatter, "prettier", ["prettier"]⟩,
    ⟨.formatter, "biome", ["@biomejs/biome"]⟩, ⟨.formatter, "dprint", ["dprint"]⟩,
    ⟨.framework, "next", ["next"]⟩, ⟨.framework, "react", ["react"]⟩, ⟨.framework, "vue", ["vue"]⟩,
    ⟨.framework, "nuxt", ["nuxt"]⟩, ⟨.framework, "svelte", ["svelte", "@sveltejs/kit"]⟩,
    ⟨.framework, "angular", ["@angular/core"]⟩, ⟨.framework, "solid", ["solid-js"]⟩,
    ⟨.framework, "remix", ["@remix-run/react", "@remix-run/node"]⟩,
    ⟨.framework, "astro", ["astro"]⟩, ⟨.framework, "express", ["express"]⟩,
    ⟨.framework, "fastify", ["fastify"]⟩, ⟨.framework, "koa", ["koa"]⟩,
    ⟨.framework, "nestjs", ["@nestjs/core"]⟩, ⟨.framework, "hono", ["hono"]⟩,
    ⟨.buildTool, "typescript", ["typescript"]⟩, ⟨.buildTool, "babel", ["@babel/core"]⟩,
    ⟨.buildTool, "swc", ["@swc/core"]⟩, ⟨.buildTool, "turbo", ["turbo"]⟩,
    ⟨.buildTool, "nx", ["nx"]⟩, ⟨.buildTool, "lerna", ["lerna"]⟩, ⟨.buildTool, "gulp", ["gulp"]⟩,
    ⟨.buildTool, "ts-node", ["ts-node", "tsx"]⟩,
    ⟨.stateLibrary, "redux", ["redux", "@reduxjs/toolkit"]⟩,
    ⟨.stateLibrary, "zustand", ["zustand"]⟩, ⟨.stateLibrary, "mobx", ["mobx"]⟩,
    ⟨.stateLibrary, "jotai", ["jotai"]⟩, ⟨.stateLibrary, "recoil", ["recoil"]⟩,
    ⟨.stateLibrary, "pinia", ["pinia"]⟩, ⟨.stateLibrary, "vuex", ["vuex"]⟩,
    ⟨.stateLibrary, "xstate", ["xstate"]⟩, ⟨.stateLibrary, "rxjs", ["rxjs"]⟩,
    ⟨.httpClient, "axios", ["axios"]⟩, ⟨.httpClient, "ky", ["ky"]⟩, ⟨.httpClient, "got", ["got"]⟩,
    ⟨.httpClient, "tanstack-query", ["@tanstack/react-query", "react-query"]⟩,
    ⟨.httpClient, "swr", ["swr"]⟩]

/-- Whether one of the names is a package of the tool. -/
def matchedBy (r : DependencyRule) (names : List String) : Bool :=
  r.packages.any names.contains

end DependencyRule

/-- Roles and labels of the tools that some dependencies stand for, in the order of the table, each once. -/
def toolsOf (names : List String) : List (ToolRole × String) :=
  ((DependencyRule.all.filter fun r => r.matchedBy names).map fun r => (r.role, r.label)).eraseDups

/-- What a tool says about the state management or the data flow of a project. -/
def toolFinding? : ToolRole × String → Option Finding
  | (.stateLibrary, label) => some ⟨.stateManagement, s!"State library: {label}"⟩
  | (.httpClient, label) => some ⟨.dataFlow, s!"HTTP client library: {label}"⟩
  | _ => none

end Gazetteer
