import ArchChange.Model.Basic
/-!
The folder tree: looking folders up by id, and filing entities. A search goes through a folder
before the folders inside it, and through those before the next folder.
-/
namespace ArchChange.Folder

mutual

/-- The first folder with the given id, the folder itself included. -/
def find? (id : String) : Folder → Option Folder
  | ⟨fid, name, folders, members⟩ =>
    if fid = id then some ⟨fid, name, folders, members⟩ else findIn? id folders
termination_by structural f => f

def findIn? (id : String) : List Folder → Option Folder
  | [] => none
  | f :: fs =>
    match find? id f with
    | some g => some g
    | none => findIn? id fs
termination_by structural fs => fs

end

mutual

/-- Changes the first folder with the given id; `none` if there is none. -/
def modify? (id : String) (change : Folder → Folder) : Folder → Option Folder
  | ⟨fid, name, folders, members⟩ =>
    if fid = id then some (change ⟨fid, name, folders, members⟩)
    else (modifyIn? id change folders).map fun folders => ⟨fid, name, folders, members⟩
termination_by structural f => f

def modifyIn? (id : String) (change : Folder → Folder) : List Folder → Option (List Folder)
  | [] => none
  | f :: fs =>
    match modify? id change f with
    | some g => some (g :: fs)
    | none => (modifyIn? id change fs).map (f :: ·)
termination_by structural fs => fs

end

mutual

/-- Takes an entity out of a folder and all folders inside it. -/
def remove (entity : String) : Folder → Folder
  | ⟨fid, name, folders, members⟩ =>
    ⟨fid, name, removeIn entity folders, members.filter fun m => m ≠ entity⟩
termination_by structural f => f

def removeIn (entity : String) : List Folder → List Folder
  | [] => []
  | f :: fs => remove entity f :: removeIn entity fs
termination_by structural fs => fs

end

mutual

/-- The id of the first folder that lists an entity. -/
def holder? (entity : String) : Folder → Option String
  | ⟨fid, _, folders, members⟩ =>
    if members.contains entity then some fid else holderIn? entity folders
termination_by structural f => f

def holderIn? (entity : String) : List Folder → Option String
  | [] => none
  | f :: fs =>
    match holder? entity f with
    | some id => some id
    | none => holderIn? entity fs
termination_by structural fs => fs

end

mutual

/-- The ids of a folder and all folders inside it. -/
def ids : Folder → List String
  | ⟨fid, _, folders, _⟩ => fid :: idsIn folders
termination_by structural f => f

def idsIn : List Folder → List String
  | [] => []
  | f :: fs => ids f ++ idsIn fs
termination_by structural fs => fs

end

/-- Files an entity at the end of a folder. -/
def addMember (entity : String) (f : Folder) : Folder :=
  { f with members := f.members ++ [entity] }

/-- Puts a folder at the end of those inside a folder. -/
def addFolder (child : Folder) (f : Folder) : Folder :=
  { f with folders := f.folders ++ [child] }

/-- Files an entity in the folder with the given id; without such a folder nothing changes. -/
def fileIn (id entity : String) (folders : List Folder) : List Folder :=
  (modifyIn? id (addMember entity) folders).getD folders

/-- The default folder for elements of a type. -/
def idFor (type : ElementType) : String :=
  match type.layer with
  | .strategy => "folder-strategy"
  | .business => "folder-business"
  | .application => "folder-application"
  | .technology | .physical => "folder-technology"
  | .motivation => "folder-motivation"
  | .implementation => "folder-implementation"
  | .other => "folder-other"

def idForRelationships : String := "folder-relations"

def idForViews : String := "folder-views"

end ArchChange.Folder
