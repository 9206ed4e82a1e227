/-!
# Statement kinds

The eight kinds of statement, in the order in which a pass performs them: folders
before the files in them, contents before names, and deletions last.
-/

namespace CommandFile

inductive Kind
  | createFolder
  | createFile
  | write
  | append
  | rename
  | deleteFile
  | deleteFolder
  | deleteForce
deriving DecidableEq, Repr

namespace Kind

def all : List Kind :=
  [.createFolder, .createFile, .write, .append, .rename, .deleteFile, .deleteFolder,
    .deleteForce]

def name : Kind → String
  | .createFolder => "create_folder"
  | .createFile => "create_file"
  | .write => "write"
  | .append => "append"
  | .rename => "rename"
  | .deleteFile => "delete_file"
  | .deleteFolder => "delete_folder"
  | .deleteForce => "delete_force"

def ofName? (name : String) : Option Kind :=
  all.find? (·.name = name)

theorem mem_all (kind : Kind) : kind ∈ all := by
  cases kind <;> simp [all]

theorem ofName?_name (kind : Kind) : ofName? kind.name = some kind := by
  cases kind <;> rfl

end Kind

end CommandFile
