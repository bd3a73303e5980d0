/-
This file models a directory of named files, with the steps that replace a file through a rename.
-/

import Mathlib.Logic.Function.Basic

namespace FastDownloader.Foundation

/-- A name has no file, or it has the contents of one. -/
abbrev Directory (Name Value : Type*) := Name → Option (List Value)

namespace Directory

variable {Name Value : Type*} [DecidableEq Name] (directory : Directory Name Value)

/-- A created file is empty, also when it was there before. -/
def create (name : Name) : Directory Name Value := Function.update directory name (some [])

def append (name : Name) (values : List Value) : Directory Name Value :=
  Function.update directory name ((directory name).map (· ++ values))

/-- The target is replaced as a whole, and the source is gone. -/
def rename (source target : Name) : Directory Name Value :=
  Function.update (Function.update directory source none) target (directory source)

variable {directory} {name other source target : Name} {values : List Value}

@[simp] theorem create_same : directory.create name name = some [] := Function.update_self ..

@[simp] theorem create_other (apart : other ≠ name) : directory.create name other = directory other :=
  Function.update_of_ne apart ..

@[simp] theorem append_same : directory.append name values name = (directory name).map (· ++ values) :=
  Function.update_self ..

@[simp] theorem append_other (apart : other ≠ name) : directory.append name values other = directory other :=
  Function.update_of_ne apart ..

@[simp] theorem rename_target : directory.rename source target target = directory source := Function.update_self ..

@[simp] theorem rename_other (notTarget : other ≠ target) (notSource : other ≠ source) :
    directory.rename source target other = directory other := by
  rw [rename, Function.update_of_ne notTarget, Function.update_of_ne notSource]

end Directory

end FastDownloader.Foundation
