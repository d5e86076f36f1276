import Stepwise.Files.Tree

/-!
# Access to files

What is asked of files: to read a path, to make a folder and those above it, and to write a path.
The files stand in a state of any type, so that those who use them can be followed with files of
any kind. A call that fails leaves a tree as it is.
-/

namespace Stepwise

/-- Access to files in a state. -/
structure FileAccess (φ : Type) where
  read : String → StateM φ (Except FileFault FileContent)
  makeFolder : String → StateM φ (Except FileFault Unit)
  write : String → FileContent → StateM φ (Except FileFault Unit)

namespace FileTree

/-- Put another tree in the place of the tree, if there is one. -/
def change (next : FileTree → Except FileFault FileTree) : StateM FileTree (Except FileFault Unit) :=
  do
    match next (← get) with
    | .error e => return .error e
    | .ok tree => do
        set tree
        return .ok ()

/-- Access to a tree. -/
def access : FileAccess FileTree where
  read path := do return (← get).read path
  makeFolder path := change fun tree => tree.makeFolder path
  write path content := change fun tree => tree.write path content

end FileTree

end Stepwise
