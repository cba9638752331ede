import ApiScribe.Declaration.Extraction

/-!
# Modules loaded on demand

A loader is the finite list of modules that it can supply, each with its file or with the reason
why the file cannot be used. The first entry of a module counts.
-/

namespace ApiScribe

/-- The modules that can be loaded on demand. -/
structure Loader where
  entries : List (ModulePath × Except Failure Source.File) := []

namespace Loader

/-- The loader that supplies nothing. -/
def none : Loader := {}

/-- What the loader supplies for a module. -/
def find? (loader : Loader) (module : ModulePath) : Option (Except Failure Source.File) :=
  (loader.entries.find? fun entry => entry.1 = module).map Prod.snd

/-- The number of type declarations in everything that the loader can supply. -/
def declarationCount (loader : Loader) : Nat :=
  loader.entries.foldr (fun entry total =>
    match entry.2 with
    | .ok file => (Extraction.declaredIn file).length + total
    | .error _ => total) 0

end Loader

end ApiScribe
