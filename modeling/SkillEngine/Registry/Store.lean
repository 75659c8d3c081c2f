import SkillEngine.FileSystem.Basic
import SkillEngine.Json.Printer
import SkillEngine.Json.Reader
import SkillEngine.Skill.Codec

/-!
# The store

The file in which the skills of a registry are kept: one document with all of them and the version
of its form.  It is replaced as a whole: the new document is written beside the old one and takes
its place by a rename, so the old document stays whole until the new one is.
-/

namespace SkillEngine

/-- What a store file holds. -/
structure StoreDocument where
  skills : List Skill
  version : UInt32

namespace StoreDocument

/-- The newest version. -/
def newestVersion : UInt32 := 1

/-- The fields of the document. -/
def record : Record StoreDocument StoreDocument :=
  StoreDocument.mk <$> .withDefault "skills" Skill.codec.list [] (·.skills)
    <*> .withDefault "version" .word32 newestVersion (·.version)

/-- The document form. -/
def codec : Codec StoreDocument := record.codec

/-- The document that holds skills now. -/
def ofSkills (skills : List Skill) : StoreDocument := ⟨skills, newestVersion⟩

/-- The text of a document. -/
def text (document : StoreDocument) : String := (codec.encode document).pretty

/-- The document that a text holds.  Contents of unknown fields are passed over unread. -/
def ofText (text : String) : Except DecodeError StoreDocument :=
  match Json.parse? codec.shape text with
  | some document => codec.read document
  | none => .error .malformed

end StoreDocument

/-- The file in which skills are kept. -/
structure Store where
  path : String

namespace Store

/-- A document of the file cannot be read. -/
def unreadable (store : Store) (error : DecodeError) : Failure :=
  .storage ("failed to parse " ++ store.path ++ ": " ++ error.message)

/-- A document of the file is newer than its readers. -/
def tooNew (store : Store) (version : UInt32) : Failure :=
  .storage (store.path ++ " has version " ++ toString version.toNat ++ ", newest supported is " ++
    toString StoreDocument.newestVersion.toNat)

/-- The file could not be replaced. -/
def notReplaced (store : Store) (fault : FileFault) : Failure :=
  .storage ("failed to replace " ++ store.path ++ ": " ++ fault.message)

/-- The skills that a text holds. -/
def skillsOf (store : Store) (text : String) : Except Failure (List Skill) :=
  match StoreDocument.ofText text with
  | .error error => .error (store.unreadable error)
  | .ok document =>
    if StoreDocument.newestVersion < document.version then .error (store.tooNew document.version)
    else .ok document.skills

/-- The stored skills; a file that is not there holds none. -/
def load (store : Store) (files : FileSystem) : Except Failure (List Skill) :=
  if files.exists? store.path then
    match files.readText store.path with
    | .ok text => store.skillsOf text
    | .error fault => .error (.file fault)
  else .ok []

/-- The path beside the file on which a new document is written first. -/
def draftPath (store : Store) : String :=
  Path.withFileName store.path ((Path.fileName? store.path).getD "" ++ ".tmp")

/-- The directories that saving makes. -/
def directoryActions (store : Store) : List FileAction :=
  match (Path.parent? store.path).filter (!·.isEmpty) with
  | some directory => [.makeDirectories directory]
  | none => []

/-- What saving a text does, in order. -/
def saveActions (store : Store) (text : String) : List FileAction :=
  store.directoryActions ++
    [.write store.draftPath text.toUTF8, .rename store.draftPath store.path]

/-- The failure of saving when one of its actions is refused. -/
def refused (store : Store) : FileAction → FileFault → Failure
  | .rename _ _, fault => store.notReplaced fault
  | .makeDirectories _, fault | .write _ _, fault => .file fault

/-- Perform actions in order up to the first that is refused, which may leave a part of its work. -/
def performAll (store : Store) :
    List FileAction → FileSystem → Except Failure Unit × FileSystem
  | [], files => (.ok (), files)
  | action :: actions, files =>
    match files.perform action with
    | .ok files => performAll store actions files
    | .error fault => (.error (store.refused action fault), files.leftBy action)

/-- Keep skills in place of those that the file held. -/
def save (store : Store) (skills : List Skill) (files : FileSystem) :
    Except Failure Unit × FileSystem :=
  store.performAll (store.saveActions (StoreDocument.ofSkills skills).text) files

end Store

end SkillEngine
