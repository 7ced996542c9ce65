import ContractStubs.Digest.Md5
import ContractStubs.Failure
import ContractStubs.Stub.File

/-!
# The cache of generated files

Files are kept by the name of their type together with the fingerprint of what they were made from. The cache holds the
types that were used last, up to its capacity; with a directory every file that enters is written there first.
-/

namespace ContractStubs

/-- A generated file and the fingerprint of what it was made from. -/
structure CacheEntry where
  typeName : String
  fingerprint : String
  file : StubFile
  deriving DecidableEq, Repr, Inhabited

namespace CacheEntry

/-- The entry of a file. -/
def ofFile (file : StubFile) (fingerprint : String) : CacheEntry := ⟨file.typeName, fingerprint, file⟩

/-- The record of an entry. -/
def toJson (e : CacheEntry) : Json :=
  .ofFields [("type_name", .string e.typeName), ("fingerprint", .string e.fingerprint), ("unit", e.file.toJson)]

/-- The record type. -/
def shape : RecordShape := ⟨"CacheEntry", ["type_name", "fingerprint", "unit"]⟩

/-- The entry that a document denotes. -/
def ofJson : Json → Except JsonFault CacheEntry :=
  Json.asRecord shape fun r =>
    CacheEntry.mk <$> r.required "type_name" Json.asText <*> r.required "fingerprint" Json.asText
      <*> r.required "unit" StubFile.ofJson

/-- The name of the file for a type in the directory of a cache. -/
def fileName (typeName : String) : String := md5 (textBytes typeName) ++ ".json"

/-- The disk with an entry in the directory of a cache. -/
def save (e : CacheEntry) (disk : Disk) (directory : String) : Except Failure Unit × Disk :=
  match disk.createDirectories directory with
  | (.error fault, disk) => (.error (.disk fault), disk)
  | (.ok (), disk) =>
    match disk.writeText (Path.join directory (fileName e.typeName)) e.toJson.toPretty with
    | .error fault => (.error (.disk fault), disk)
    | .ok disk => (.ok (), disk)

end CacheEntry

/-- A cache. -/
structure StubCache where
  /-- The number of entries kept in memory, at least one. -/
  capacity : Nat
  /-- The directory that entries are written to. -/
  dir? : Option String
  /-- The entries in memory, the one used last first. -/
  entries : List CacheEntry
  deriving DecidableEq, Repr, Inhabited

namespace StubCache

/-- A cache without entries; there is room for one at least. -/
def empty (capacity : Nat) (dir? : Option String) : StubCache := ⟨max capacity 1, dir?, []⟩

/-- The number of entries in memory. -/
def size (c : StubCache) : Nat := c.entries.length

/-- No entry is in memory. -/
def isEmpty (c : StubCache) : Bool := c.entries.isEmpty

/-- The entry of a type. -/
def find? (c : StubCache) (typeName : String) : Option CacheEntry := c.entries.find? fun e => e.typeName == typeName

/-- An entry in front of all others, in place of the one of its type. -/
def moveToFront (e : CacheEntry) (entries : List CacheEntry) : List CacheEntry :=
  e :: entries.filter fun f => f.typeName != e.typeName

/-- The file of a type, if it was made from the same; a type that is found counts as used even if it was not. -/
def get (c : StubCache) (typeName fingerprint : String) : Option StubFile × StubCache :=
  match c.find? typeName with
  | none => (none, c)
  | some e =>
    (if e.fingerprint = fingerprint then some e.file else none, { c with entries := moveToFront e c.entries })

/-- The cache with an entry in memory; where there is no room the type goes whose last use is longest ago. -/
def put (c : StubCache) (e : CacheEntry) : StubCache :=
  { c with entries := (moveToFront e c.entries).take c.capacity }

/-- An entry in the directory, if there is one. -/
def saveEntry (c : StubCache) (disk : Disk) (e : CacheEntry) : Except Failure Unit × Disk :=
  match c.dir? with
  | none => (.ok (), disk)
  | some directory => e.save disk directory

/-- The cache with a file, once it is in the directory. -/
def insert (c : StubCache) (disk : Disk) (file : StubFile) (fingerprint : String) :
    Except Failure Unit × StubCache × Disk :=
  match c.saveEntry disk (.ofFile file fingerprint) with
  | (.error failure, disk) => (.error failure, c, disk)
  | (.ok (), disk) => (.ok (), c.put (.ofFile file fingerprint), disk)

/-- The cache without entries, and the disk without its directory. -/
def clear (c : StubCache) (disk : Disk) : Except Failure Unit × StubCache × Disk :=
  let emptied : StubCache := { c with entries := [] }
  match c.dir? with
  | none => (.ok (), emptied, disk)
  | some directory =>
    if disk.exists? directory then
      let (outcome, disk) := disk.removeDirectory directory
      (Failure.ofDisk outcome, emptied, disk)
    else (.ok (), emptied, disk)

/-- Entries in the directory, up to the first one that fails. -/
def saveEntries (c : StubCache) : List CacheEntry → Disk → Except Failure Unit × Disk
  | [], disk => (.ok (), disk)
  | e :: es, disk =>
    match c.saveEntry disk e with
    | (.error failure, disk) => (.error failure, disk)
    | (.ok (), disk) => saveEntries c es disk

/-- All entries in the directory. -/
def save (c : StubCache) (disk : Disk) : Except Failure Unit × Disk := c.saveEntries c.entries disk

/-- The entry in a file of the directory, if it holds one. -/
def readEntry? (disk : Disk) (path : String) : Option CacheEntry :=
  if Path.extension? path = some "json" then
    (disk.readText path).toOption.bind fun text => (Json.decodeText CacheEntry.ofJson text).toOption
  else none

/-- The cache with the entries of its directory, read in the order of the file names; other files are passed over. -/
def load (c : StubCache) (disk : Disk) : Except Failure StubCache :=
  match c.dir? with
  | none => .ok c
  | some directory =>
    if disk.exists? directory then
      (Failure.ofDisk (disk.readDirectory directory)).map fun names =>
        (names.filterMap fun name => readEntry? disk (Path.join directory name)).foldl put c
    else .ok c

end StubCache

end ContractStubs
