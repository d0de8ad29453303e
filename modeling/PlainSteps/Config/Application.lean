import PlainSteps.Config.Basic
import PlainSteps.Libraries

/-! # Applications

An application is a configuration together with the libraries it is used with.
-/

namespace PlainSteps

/-- A configuration and the libraries it is used with; the own ones when no others are given. -/
structure Application extends Config where
  libraries : Libraries := .own

instance : Coe Config Application := ⟨fun config => { toConfig := config }⟩

end PlainSteps
