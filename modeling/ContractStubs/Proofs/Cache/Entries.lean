import ContractStubs.Cache.Basic
import Mathlib.Data.List.Nodup

/-!
# The entries of a cache

What `get` answers was in the cache, and neither it nor an insert brings in anything but the file that is inserted.
Entries are for different types and fit in (`StubCache.IsProper`): `get` only moves them
(`StubCache.IsProper.perm_get`), and what is put in for other types fills the cache up to its capacity
(`StubCache.IsProper.size_foldl_put`).
-/

namespace ContractStubs

namespace StubCache

variable {c : StubCache} {e : CacheEntry} {name fingerprint : String} {file : StubFile} {disk : Disk}

theorem mem_of_mem_moveToFront {entries : List CacheEntry} {f : CacheEntry} (h : f ∈ moveToFront e entries) :
    f = e ∨ f ∈ entries :=
  (List.mem_cons.mp h).imp_right List.mem_of_mem_filter

theorem of_find?_eq_some (h : c.find? name = some e) : e ∈ c.entries ∧ e.typeName = name := by
  rw [find?] at h
  exact ⟨List.mem_of_find?_eq_some h, by simpa using List.find?_some h⟩

/-- What is answered is the file of an entry for the name with the fingerprint. -/
theorem of_get_eq_some (h : (c.get name fingerprint).1 = some file) :
    ∃ e ∈ c.entries, e.typeName = name ∧ e.fingerprint = fingerprint ∧ e.file = file := by
  rw [get] at h
  split at h
  next => cases h
  next e hfind =>
    dsimp only at h
    split at h
    next hfp =>
      obtain ⟨hmem, hname⟩ := of_find?_eq_some hfind
      exact ⟨e, hmem, hname, hfp, Option.some.inj h⟩
    next => cases h

theorem mem_of_mem_get (h : e ∈ (c.get name fingerprint).2.entries) : e ∈ c.entries := by
  rw [get] at h
  split at h
  next => exact h
  next f hfind =>
    rcases mem_of_mem_moveToFront h with rfl | h
    · exact (of_find?_eq_some hfind).1
    · exact h

theorem of_mem_insert (h : e ∈ (c.insert disk file fingerprint).2.1.entries) :
    e = .ofFile file fingerprint ∨ e ∈ c.entries := by
  rw [insert] at h
  split at h
  next => exact .inr h
  next => exact mem_of_mem_moveToFront (List.mem_of_mem_take h)

/-- Looking one type up leaves alone what is found for another. -/
theorem find?_get_of_ne {other : String} (h : other ≠ name) :
    (c.get name fingerprint).2.find? other = c.find? other := by
  rw [get]
  split
  next => rfl
  next e hfind =>
    have hname : e.typeName = name := (of_find?_eq_some hfind).2
    have hne : (e.typeName == other) = false := by
      rw [hname]
      exact beq_false_of_ne h.symm
    rw [find?, find?, moveToFront, List.find?_cons, hne, List.find?_filter]
    refine congrArg (List.find? · c.entries) (funext fun f => ?_)
    by_cases hf : f.typeName = other
    · simp [hf, hname, h]
    · simp [hf]

theorem get_get_of_ne {other : String} (h : other ≠ name) (otherFingerprint : String) :
    ((c.get name fingerprint).2.get other otherFingerprint).1 = (c.get other otherFingerprint).1 := by
  rw [get.eq_def _ other, get.eq_def c other, find?_get_of_ne h]
  split <;> rfl

/-! ## Filling a cache -/

/-- The types that entries are for. -/
def names (c : StubCache) : List String := c.entries.map (·.typeName)

/-- The entries are for different types, and no more than the cache has room for. -/
structure IsProper (c : StubCache) : Prop where
  names : c.names.Nodup
  room : c.size ≤ c.capacity

theorem isProper_empty (capacity : Nat) (dir? : Option String) : (empty capacity dir?).IsProper :=
  ⟨List.nodup_nil, Nat.zero_le _⟩

theorem mem_names : name ∈ c.names ↔ ∃ e ∈ c.entries, e.typeName = name := List.mem_map

theorem IsProper.eq_of_typeName_eq (h : c.IsProper) {f : CacheEntry} (he : e ∈ c.entries) (hf : f ∈ c.entries)
    (hname : e.typeName = f.typeName) : e = f :=
  List.inj_on_of_nodup_map h.names he hf hname

theorem find?_eq_none (h : name ∉ c.names) : c.find? name = none := by
  rw [find?, List.find?_eq_none]
  intro e he hname
  exact h (mem_names.mpr ⟨e, he, by simpa using hname⟩)

theorem IsProper.find?_eq_some (h : c.IsProper) (he : e ∈ c.entries) : c.find? e.typeName = some e := by
  cases hfind : c.find? e.typeName with
  | none =>
    rw [find?, List.find?_eq_none] at hfind
    exact absurd (beq_self_eq_true e.typeName) (hfind e he)
  | some f =>
    obtain ⟨hf, hname⟩ := of_find?_eq_some hfind
    rw [h.eq_of_typeName_eq hf he hname]

theorem get_eq_none (h : name ∉ c.names) : (c.get name fingerprint).1 = none := by
  rw [get, find?_eq_none h]

theorem IsProper.get_eq_some (h : c.IsProper) (he : e ∈ c.entries) :
    (c.get e.typeName e.fingerprint).1 = some e.file := by
  rw [get, h.find?_eq_some he]
  exact if_pos rfl

/-- Moving an entry to the front moves it only. -/
theorem IsProper.perm_moveToFront (h : c.IsProper) (he : e ∈ c.entries) : (moveToFront e c.entries).Perm c.entries := by
  have hentries : c.entries.Nodup := List.Nodup.of_map _ h.names
  have hnot : e ∉ c.entries.filter fun f => f.typeName != e.typeName := by
    intro hmem
    simpa using (List.mem_filter.mp hmem).2
  refine (List.perm_ext_iff_of_nodup (List.nodup_cons.mpr ⟨hnot, hentries.filter _⟩) hentries).mpr fun f => ?_
  rw [List.mem_cons, List.mem_filter, bne_iff_ne]
  constructor
  · rintro (rfl | ⟨hf, -⟩)
    · exact he
    · exact hf
  · intro hf
    by_cases hname : f.typeName = e.typeName
    · exact .inl (h.eq_of_typeName_eq hf he hname)
    · exact .inr ⟨hf, hname⟩

/-- Looking up moves entries only. -/
theorem IsProper.perm_get (h : c.IsProper) (name fingerprint : String) :
    (c.get name fingerprint).2.entries.Perm c.entries := by
  rw [get]
  split
  next => exact .refl _
  next e hfind => exact h.perm_moveToFront (of_find?_eq_some hfind).1

theorem get_capacity (c : StubCache) (name fingerprint : String) :
    (c.get name fingerprint).2.capacity = c.capacity := by
  rw [get]
  split <;> rfl

theorem get_dir? (c : StubCache) (name fingerprint : String) : (c.get name fingerprint).2.dir? = c.dir? := by
  rw [get]
  split <;> rfl

/-- Where the same entries are, they are for different types and fit in as before. -/
theorem IsProper.of_perm (h : c.IsProper) {d : StubCache} (hperm : d.entries.Perm c.entries)
    (hcapacity : d.capacity = c.capacity) : d.IsProper := by
  have hnames : d.names.Perm c.names := hperm.map _
  refine ⟨hnames.nodup_iff.mpr h.names, ?_⟩
  rw [size, hperm.length_eq, hcapacity]
  exact h.room

/-- An entry for a further type goes to the front, and what there is no room for goes. -/
theorem entries_put (h : e.typeName ∉ c.names) : (c.put e).entries = (e :: c.entries).take c.capacity := by
  have hall : ∀ f ∈ c.entries, (f.typeName != e.typeName) = true := by
    intro f hf
    rw [bne_iff_ne]
    intro hname
    exact h (mem_names.mpr ⟨f, hf, hname⟩)
  rw [put, moveToFront, List.filter_eq_self.mpr hall]

theorem IsProper.put (h : c.IsProper) (he : e.typeName ∉ c.names) : (c.put e).IsProper := by
  have hnames : (e.typeName :: c.names).Nodup := List.nodup_cons.mpr ⟨he, h.names⟩
  refine ⟨?_, ?_⟩
  · rw [StubCache.names, entries_put he, List.map_take]
    exact hnames.sublist (List.take_sublist _ _)
  · rw [size, entries_put he, List.length_take]
    exact Nat.min_le_left _ _

theorem size_put (he : e.typeName ∉ c.names) : (c.put e).size = min (c.size + 1) c.capacity := by
  rw [size, entries_put he, List.length_take, List.length_cons, Nat.min_comm]
  rfl

theorem mem_of_mem_put {f : CacheEntry} (h : f ∈ (c.put e).entries) : f = e ∨ f ∈ c.entries :=
  mem_of_mem_moveToFront (List.mem_of_mem_take h)

/-- What is put in is for different types that have no entry yet. -/
def AreNewIn (c : StubCache) (es : List CacheEntry) : Prop :=
  (es.map (·.typeName)).Nodup ∧ ∀ f ∈ es, f.typeName ∉ c.names

theorem AreNewIn.tail {es : List CacheEntry} (h : c.AreNewIn (e :: es)) : (c.put e).AreNewIn es := by
  obtain ⟨hnodup, hnew⟩ := h
  obtain ⟨he, hes⟩ := List.nodup_cons.mp hnodup
  refine ⟨hes, fun f hf hmem => ?_⟩
  obtain ⟨f', hf', hname⟩ := mem_names.mp hmem
  rcases mem_of_mem_put hf' with rfl | hf'
  · exact he (List.mem_map.mpr ⟨f, hf, hname.symm⟩)
  · exact hnew f (List.mem_cons_of_mem _ hf) (mem_names.mpr ⟨f', hf', hname⟩)

theorem IsProper.foldl_put : ∀ {es : List CacheEntry} {c : StubCache}, c.IsProper → c.AreNewIn es →
    (es.foldl StubCache.put c).IsProper
  | [], _, h, _ => h
  | e :: _, _, h, hnew => (h.put (hnew.2 e List.mem_cons_self)).foldl_put hnew.tail

/-- **Entries for further types fill the cache up.** -/
theorem IsProper.size_foldl_put : ∀ {es : List CacheEntry} {c : StubCache}, c.IsProper → c.AreNewIn es →
    (es.foldl StubCache.put c).size = min (c.size + es.length) c.capacity
  | [], _, h, _ => (Nat.min_eq_left h.room).symm
  | e :: es, c, h, hnew => by
    have he : e.typeName ∉ c.names := hnew.2 e List.mem_cons_self
    have hcapacity : (c.put e).capacity = c.capacity := rfl
    rw [List.foldl_cons, (h.put he).size_foldl_put hnew.tail, size_put he, hcapacity, List.length_cons]
    omega

theorem capacity_foldl_put : ∀ (es : List CacheEntry) (c : StubCache), (es.foldl put c).capacity = c.capacity
  | [], _ => rfl
  | e :: es, c => capacity_foldl_put es (c.put e)

theorem dir?_foldl_put : ∀ (es : List CacheEntry) (c : StubCache), (es.foldl put c).dir? = c.dir?
  | [], _ => rfl
  | e :: es, c => dir?_foldl_put es (c.put e)

/-- Without a directory to write to, a file always enters. -/
theorem insert_of_no_dir (h : c.dir? = none) :
    c.insert disk file fingerprint = (.ok (), c.put (.ofFile file fingerprint), disk) := by
  rw [insert, saveEntry, h]

end StubCache

end ContractStubs
