import SideEffectLint.Path.Glob

/-!
Paths that are left out: tests, mocks and the code of others.
-/

namespace SideEffectLint

structure Exclude where
  globs : List Glob
deriving Repr, DecidableEq, Inhabited

namespace Exclude

def standard : Exclude :=
  ⟨["**/*.spec.*", "**/*.test.*", "**/__tests__/**", "**/__mocks__/**",
    "**/node_modules/**"].map Glob.ofText⟩

/-- No pattern stands for the path. -/
def keeps (e : Exclude) (path : String) : Bool :=
  !e.globs.any (·.isMatch path)

end Exclude

end SideEffectLint
