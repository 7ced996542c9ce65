import ContractStubs.Proofs.Cache.Rereading
import ContractStubs.Proofs.Disk.Files

/-!
# The directory of a cache

An entry is written into the directory of a cache under the digest of the name of its type, which is a plain name
(`CacheEntry.isPlainName_fileName`). Where the files in a directory are those of some entries, the latest of each name
(`Disk.HoldsLatest`), one more entry keeps it so (`Disk.HoldsLatest.save`), and what is read from the directory are these
entries (`Disk.HoldsLatest.readEntry?_join`).
-/

namespace ContractStubs

/-! ## Names of files -/

/-- A byte has two digits, of which none is a dot or a slash. -/
theorem byteText_digits (b : UInt8) : Md5.byteText b ≠ [] ∧ ∀ c ∈ Md5.byteText b, c ≠ '.' ∧ c ≠ '/' := by
  have hdigit : ∀ d < 16, Nat.digitChar d ≠ '.' ∧ Nat.digitChar d ≠ '/' := by decide
  have hlt : b.toNat < 256 := b.toNat_lt
  rw [Md5.byteText]
  by_cases hb : b.toNat < 16
  · simp [hb, Nat.toDigits_of_lt_base hb, hdigit b.toNat hb]
  · have hfirst : b.toNat / 16 < 16 := by omega
    have hsecond : b.toNat % 16 < 16 := by omega
    have hdigits := Nat.toDigits_append_toDigits (by decide : 1 < 16) (by omega : 0 < b.toNat / 16) hsecond
    rw [Nat.div_add_mod, Nat.toDigits_of_lt_base hfirst, Nat.toDigits_of_lt_base hsecond] at hdigits
    simp [hb, ← hdigits, hdigit _ hfirst, hdigit _ hsecond]

/-- A digest has digits, and nothing but digits. -/
theorem md5_digits (message : List UInt8) : md5 message ≠ "" ∧ ∀ c ∈ (md5 message).toList, c ≠ '.' ∧ c ≠ '/' := by
  have hbytes : ∀ w : Md5.Words, ∃ b bs, w.bytes = b :: bs := fun w => ⟨_, _, rfl⟩
  unfold md5
  obtain ⟨b, bs, hw⟩ := hbytes ((Md5.blocksOf ((Md5.wordsOf (Md5.fillUp message)).length / 16)
    (Md5.wordsOf (Md5.fillUp message))).foldl Md5.absorb Md5.start)
  dsimp only
  rw [hw, String.toList_ofList]
  refine ⟨fun he => ?_, fun c hc => ?_⟩
  · have hnil := congrArg String.toList he
    rw [String.toList_ofList, List.flatMap_cons] at hnil
    exact (byteText_digits b).1 (List.append_eq_nil_iff.mp hnil).1
  · obtain ⟨b', -, hc⟩ := List.mem_flatMap.mp hc
    exact (byteText_digits b').2 c hc

namespace CacheEntry

open Disk

/-- The name of the file for a type leads one step down. -/
theorem isPlainName_fileName (typeName : String) : IsPlainName (fileName typeName) := by
  have hchars : (fileName typeName).toList = (md5 (textBytes typeName)).toList ++ ['.', 'j', 's', 'o', 'n'] := by
    simp [fileName]
  have hne : ∀ short : String, short.toList.length < 5 → fileName typeName ≠ short := by
    intro short hshort he
    rw [← he, hchars] at hshort
    simp only [List.length_append, List.length_cons] at hshort
    omega
  refine ⟨hne "" (by decide), ?_, ?_⟩
  · simp [isDots, hne "." (by decide), hne ".." (by decide)]
  · rw [hchars, List.mem_append]
    rintro (hslash | hslash)
    · exact ((md5_digits _).2 _ hslash).2 rfl
    · simp at hslash

theorem fileName_inj {a b : String} (h : fileName a = fileName b) : md5 (textBytes a) = md5 (textBytes b) := by
  have hchars := congrArg String.toList h
  simp only [fileName, String.toList_append] at hchars
  exact String.toList_inj.mp (List.append_cancel_right hchars)

end CacheEntry

namespace Path

open Disk

/-- The last part of a joined path is the name. -/
theorem fileName?_join {name : String} (hname : IsPlainName name) (base : String) :
    fileName? (join base name) = some name := by
  obtain ⟨before, hpieces, -⟩ := hname.pieces_join base
  have hpart : ∀ index, partOf? name index = some (.name name) := fun index => by
    simp [partOf?, hname.ne_empty, hname.ne_dots]
  rw [fileName?, parts, hpieces, List.zipIdx_append]
  simp [hpart]

/-- The files of a cache are told by their extension. -/
theorem extension?_join (base typeName : String) :
    extension? (join base (CacheEntry.fileName typeName)) = some "json" := by
  have hdigest : textPieces (· = '.') (md5 (textBytes typeName)) = [md5 (textBytes typeName)] :=
    textPieces_of_none fun c hc => decide_eq_false ((md5_digits _).2 c hc).1
  have hpieces : textPieces (· = '.') (CacheEntry.fileName typeName) = [md5 (textBytes typeName), "json"] := by
    have hdot : CacheEntry.fileName typeName = md5 (textBytes typeName) ++ "." ++ "json" := by
      rw [CacheEntry.fileName, String.append_assoc]
      rfl
    rw [hdot, textPieces_append (d := '.') rfl (by simp), hdigest]
    rfl
  rw [extension?, fileName?_join (CacheEntry.isPlainName_fileName typeName), Option.bind_some, hpieces]
  simp [(md5_digits (textBytes typeName)).1]

end Path

/-! ## What the directory holds -/

namespace Disk

open CacheEntry

variable {disk other : Disk} {directory : String} {history : List CacheEntry} {e : CacheEntry}

/-- The entry that was written last under a name, the history having the latest first. -/
def latest? (history : List CacheEntry) (name : String) : Option CacheEntry :=
  history.find? fun e => fileName e.typeName == name

theorem of_latest?_eq_some {name : String} (h : latest? history name = some e) :
    e ∈ history ∧ fileName e.typeName = name :=
  ⟨List.mem_of_find?_eq_some h, by simpa using List.find?_some h⟩

/-- The files in a directory are those of the entries that were written, the latest under each name, and these files are
found there. -/
structure HoldsLatest (disk : Disk) (directory : String) (history : List CacheEntry) : Prop where
  file_iff : ∀ name content, disk.node? (disk.placeOf directory ++ [name]) = some (.file content) ↔
    ∃ e, latest? history name = some e ∧ content = .text e.toJson.toPretty
  plain : ∀ name, (disk.node? (disk.placeOf directory ++ [name])).isSome → IsPlainName name
  path : ∀ e ∈ history, checkPath (Path.join directory (fileName e.typeName)) = .ok () ∧
    (fileName e.typeName).utf8ByteSize ≤ nameLimit
  leads : history ≠ [] → disk.LeadsToDirectory directory

/-- Nothing stands at the place or below it. -/
def IsVacant (disk : Disk) (place : Place) : Prop := ∀ below, disk.node? (place ++ below) = none

theorem IsVacant.holdsLatest (h : disk.IsVacant (disk.placeOf directory)) : disk.HoldsLatest directory [] := by
  refine ⟨fun name content => ?_, fun name hnode => ?_, by simp, by simp⟩
  · simp [h [name], latest?]
  · simp [h [name]] at hnode

/-- An entry that is saved is written into the directory once this is there. -/
theorem of_save_eq_ok (h : e.save disk directory = (.ok (), other)) : ∃ made,
    disk.createDirectories directory = (.ok (), made) ∧
      made.writeText (Path.join directory (fileName e.typeName)) e.toJson.toPretty = .ok other := by
  rw [save] at h
  split at h
  next => simp at h
  next made hmade =>
    split at h
    next => simp at h
    next written hwritten =>
      obtain ⟨-, rfl⟩ := Prod.mk.inj h
      exact ⟨made, hmade, hwritten⟩

/-- Nothing can be saved into a directory without a name that is not there. -/
theorem save_ne_ok_of_vacant (h : disk.IsVacant (disk.placeOf "")) : e.save disk "" ≠ (.ok (), other) := by
  intro hsave
  obtain ⟨made, hmade, hwritten⟩ := of_save_eq_ok hsave
  have hsame : disk.createDirectories "" = (.ok (), disk) := rfl
  obtain rfl := (Prod.mk.inj (hsame.symm.trans hmade)).2
  have hdirectory := (of_writeText_join (isPlainName_fileName e.typeName) hwritten).2.1.directory
  have hnone := h []
  rw [List.append_nil, hdirectory] at hnone
  cases hnone

/-- **One more entry takes the place of the one that was written under its name.** -/
theorem HoldsLatest.save (h : disk.HoldsLatest directory history) (hsave : e.save disk directory = (.ok (), other)) :
    other.HoldsLatest directory (e :: history) ∧ other.placeOf directory = disk.placeOf directory := by
  obtain ⟨made, hmade, hwritten⟩ := of_save_eq_ok hsave
  have hname := isPlainName_fileName e.typeName
  have hmakes : disk.MakesDirectories made := by
    have hall := makesDirectories_createDirectories disk directory
    rwa [hmade] at hall
  obtain ⟨hcheck, hleads, hshort, hfile, rfl⟩ := of_writeText_join hname hwritten
  have hput : made.Keeps (made.put (made.placeOf directory ++ [fileName e.typeName])
      (.file (.text e.toJson.toPretty))) := keeps_put hfile
  have hplace := (hmakes.keeps.trans hput).placeOf directory
  refine ⟨⟨fun name content => ?_, fun name hnode => ?_, ?_, fun _ => hleads.keeps hput⟩, hplace⟩
  · rw [hplace, node?_put, hmakes.keeps.placeOf, latest?, List.find?_cons]
    by_cases he : name = fileName e.typeName
    · subst he
      simp [eq_comm]
    · have hne : (fileName e.typeName == name) = false := beq_false_of_ne (Ne.symm he)
      rw [if_neg (by simpa using he), hne]
      refine Iff.trans ?_ (h.file_iff name content)
      rcases hmakes.node?_eq (disk.placeOf directory) name with hsame | ⟨hnew, hnone, -⟩
      · rw [hsame]
      · simp [hnew, hnone]
  · rw [hplace, node?_put, hmakes.keeps.placeOf] at hnode
    split at hnode
    next he =>
      rw [List.singleton_inj.mp (List.append_inj_right' he rfl)]
      exact hname
    next =>
      rcases hmakes.node?_eq (disk.placeOf directory) name with hsame | ⟨-, -, hplain⟩
      · exact h.plain name (hsame ▸ hnode)
      · exact hplain
  · exact List.forall_mem_cons.mpr ⟨⟨hcheck, hshort⟩, h.path⟩

/-- An entry is read from the file that it was written into. -/
theorem readEntry?_of_find {path : String} {place : Place} (hextension : Path.extension? path = some "json")
    (hfind : disk.find path = .ok (place, .file (.text e.toJson.toPretty))) :
    StubCache.readEntry? disk path = some e := by
  rw [StubCache.readEntry?, if_pos hextension, readText_of_find hfind]
  simp only [Except.toOption, Option.bind_some, e.decodeText_toPretty]

/-- **What is read from the directory under a name is the entry that was written last under it.** -/
theorem HoldsLatest.readEntry?_join (h : disk.HoldsLatest directory history) {name : String} (hname : IsPlainName name) :
    StubCache.readEntry? disk (Path.join directory name) = latest? history name := by
  cases hlatest : latest? history name with
  | some e =>
    obtain ⟨hmem, rfl⟩ := of_latest?_eq_some hlatest
    obtain ⟨hcheck, hshort⟩ := h.path e hmem
    have hnode := (h.file_iff _ _).mpr ⟨e, hlatest, rfl⟩
    exact readEntry?_of_find (Path.extension?_join _ _)
      (find_join hname hcheck (h.leads (List.ne_nil_of_mem hmem)) hshort hnode)
  | none =>
    rw [StubCache.readEntry?]
    split
    next =>
      cases hread : disk.readText (Path.join directory name) with
      | error fault => rfl
      | ok text =>
        obtain ⟨e, he, -⟩ := (h.file_iff _ _).mp (node?_of_readText_join hname hread)
        rw [hlatest] at he
        cases he
    next => rfl

end Disk

end ContractStubs
