import ApiDiagrams.Proofs.Cache.Entry
import ApiDiagrams.Proofs.Cache.Files

/-!
# A store over its history

What a store holds is a map from keys to what was last stored under them. The files of a store are
compared with this map after any sequence of operations, whatever files were there at first.

* `Op`, `Event`, `held`: operations with their times, and the map that they make;
* `FileStore.Reaches`: the trees that a sequence of operations can lead to;
* `FileStore.Step`, `FileStore.step_of_succeeds`: what each operation does to the files;
* `FileStore.Reaches.origin`: each file is an old one or that of what is held;
* `FileStore.Reaches.kept`: what is held and still valid can be read;
* `FileStore.get_refines_held`: reading through a store is reading the map;
* `FileStore.Runs`, `FileStore.run`: a history that is run, with `FileStore.Runs.reaches`.
-/

namespace ApiDiagrams
namespace Cache

/-! ### The map -/

/-- An operation of a store. -/
inductive Op
  | get (key : String)
  | set (key : String) (data : ByteArray) (ttl : ℤ)
  | delete (key : String)
  | clear

/-- The key that an operation is about. -/
def Op.key? : Op → Option String
  | .get key | .set key _ _ | .delete key => some key
  | .clear => none

/-- An operation and the time on the clock when it was run. -/
structure Event where
  time : ℤ
  op : Op

/-- Data that were stored, with the time when they were. They do not expire when `ttl` is not
positive. -/
structure Deposit where
  time : ℤ
  data : ByteArray
  ttl : ℤ

/-- The data are still valid. -/
def Deposit.IsLive (r : Deposit) (now : ℤ) : Prop := r.ttl ≤ 0 ∨ now ≤ r.time + r.ttl

theorem Deposit.IsLive.mono {r : Deposit} {now later : ℤ} (h : r.IsLive later) (hle : now ≤ later) :
    r.IsLive now := h.imp_right hle.trans

/-- The map after one more operation. -/
def Event.apply (map : String → Option Deposit) (e : Event) : String → Option Deposit :=
  match e.op with
  | .get _ => map
  | .set key data ttl => Function.update map key (some ⟨e.time, data, ttl⟩)
  | .delete key => Function.update map key none
  | .clear => fun _ => none

/-- What operations leave under each key: what was stored last, unless it was deleted or cleared
after that. -/
def held (past : List Event) : String → Option Deposit := past.foldl Event.apply fun _ => none

@[simp] theorem held_nil (key : String) : held [] key = none := rfl

theorem held_concat (past : List Event) (e : Event) : held (past ++ [e]) = e.apply (held past) := by
  rw [held, List.foldl_append]
  rfl

/-- The operation says what is held under the key from then on. -/
def Op.Decides (key : String) : Op → Prop
  | .get _ => False
  | .set other _ _ | .delete other => other = key
  | .clear => True

theorem apply_of_not_decides {map : String → Option Deposit} {e : Event} {key : String}
    (h : ¬e.op.Decides key) : e.apply map key = map key := by
  obtain ⟨time, op⟩ := e
  cases op with
  | get other => rfl
  | set other data ttl => exact Function.update_of_ne (fun heq => h heq.symm) _ _
  | delete other => exact Function.update_of_ne (fun heq => h heq.symm) _ _
  | clear => exact absurd trivial h

theorem apply_of_decides {map : String → Option Deposit} {e : Event} {key : String} {r : Deposit}
    (h : e.op.Decides key) : e.apply map key = some r ↔ e = ⟨r.time, .set key r.data r.ttl⟩ := by
  obtain ⟨time, op⟩ := e
  cases op with
  | get other => cases h
  | set other data ttl =>
    obtain rfl : other = key := h
    obtain ⟨rtime, rdata, rttl⟩ := r
    simp [Event.apply]
  | delete other =>
    obtain rfl : other = key := h
    simp [Event.apply]
  | clear => simp [Event.apply]

theorem held_set (past : List Event) (time : ℤ) (key : String) (data : ByteArray) (ttl : ℤ) :
    held (past ++ [⟨time, .set key data ttl⟩]) key = some ⟨time, data, ttl⟩ := by
  rw [held_concat]
  exact Function.update_self _ _ _

theorem held_delete (past : List Event) (time : ℤ) (key : String) :
    held (past ++ [⟨time, .delete key⟩]) key = none := by
  rw [held_concat]
  exact Function.update_self _ _ _

theorem held_clear (past : List Event) (time : ℤ) (key : String) :
    held (past ++ [⟨time, .clear⟩]) key = none := by
  rw [held_concat]
  rfl

theorem held_of_not_decides {past : List Event} {time : ℤ} {op : Op} {key : String}
    (h : ¬op.Decides key) : held (past ++ [⟨time, op⟩]) key = held past key := by
  rw [held_concat]
  exact apply_of_not_decides h

/-- An element of a list with one more at its end is that one or stands before it. -/
theorem concat_eq_append_cons {past before after : List Event} {e x : Event}
    (h : past ++ [e] = before ++ x :: after) :
    e = x ∧ after = [] ∨ ∃ rest, after = rest ++ [e] ∧ past = before ++ x :: rest := by
  rcases List.eq_nil_or_concat after with rfl | ⟨rest, last, rfl⟩
  · exact Or.inl ⟨List.singleton_inj.1 (List.append_inj' h rfl).2, rfl⟩
  · rw [List.concat_eq_append, ← List.cons_append, ← List.append_assoc] at h
    obtain ⟨hpast, hlast⟩ := List.append_inj' h rfl
    exact Or.inr ⟨rest, by rw [List.concat_eq_append, hlast], hpast⟩

/-- What is held under a key is what was stored last, with no deletion and no clearing after it. -/
theorem held_eq_some_iff {past : List Event} {key : String} {r : Deposit} :
    held past key = some r ↔
      ∃ before after, past = before ++ ⟨r.time, .set key r.data r.ttl⟩ :: after ∧
        ∀ e ∈ after, ¬e.op.Decides key := by
  induction past using List.reverseRecOn with
  | nil => simp
  | append_singleton past e ih =>
    rw [held_concat]
    by_cases hd : e.op.Decides key
    · rw [apply_of_decides hd]
      constructor
      · rintro rfl
        exact ⟨past, [], rfl, by simp⟩
      · rintro ⟨before, after, hpast, hafter⟩
        rcases concat_eq_append_cons hpast with ⟨he, -⟩ | ⟨rest, rfl, -⟩
        · exact he
        · exact absurd hd (hafter e (by simp))
    · rw [apply_of_not_decides hd, ih]
      constructor
      · rintro ⟨before, after, rfl, hafter⟩
        refine ⟨before, after ++ [e], by simp, fun x hx => ?_⟩
        rcases List.mem_append.1 hx with hx | hx
        · exact hafter x hx
        · rwa [List.mem_singleton.1 hx]
      · rintro ⟨before, after, hpast, hafter⟩
        rcases concat_eq_append_cons hpast with ⟨rfl, -⟩ | ⟨rest, rfl, hbefore⟩
        · exact absurd rfl hd
        · exact ⟨before, rest, hbefore, fun x hx => hafter x (by simp [hx])⟩

/-- What is held was stored by one of the operations. -/
theorem mem_of_held {past : List Event} {key : String} {r : Deposit} (h : held past key = some r) :
    ⟨r.time, .set key r.data r.ttl⟩ ∈ past := by
  obtain ⟨before, after, rfl, -⟩ := held_eq_some_iff.1 h
  simp

namespace Deposit

variable {r : Deposit} {key writer : String} {now : ℤ} {data : ByteArray}

/-- The entry of stored data. -/
def entry (r : Deposit) (key : String) : Entry := FileStore.entryAt key r.data r.ttl r.time

/-- The file of stored data. -/
def bytes (r : Deposit) (key : String) : ByteArray := (String.ofList (r.entry key).text).toUTF8

theorem isExpired_entry_iff (key : String) (hz : Time.Moment.zero ≤ r.time) :
    (r.entry key).isExpired now = false ↔ r.IsLive now := by
  unfold entry FileStore.entryAt Entry.isExpired IsLive
  dsimp only
  by_cases httl : r.ttl > 0
  · rw [if_pos httl]
    simp only [Bool.and_eq_false_iff, decide_eq_false_iff_not]
    omega
  · rw [if_neg httl]
    simp
    omega

/-- The file of stored data gives them back, for their key and as long as they are valid. -/
theorem fresh?_bytes (hw : (r.entry writer).isWritable = true) (hz : Time.Moment.zero ≤ r.time) :
    FileStore.fresh? key now (r.bytes writer) = some data ↔
      writer = key ∧ r.IsLive now ∧ r.data = data := by
  have hkey : (r.entry writer).key = writer := rfl
  have hdata : (r.entry writer).data = r.data := rfl
  unfold FileStore.fresh? bytes
  rw [Entry.parse?_text hw]
  dsimp only
  rw [hkey, hdata, ← isExpired_entry_iff writer hz]
  cases (r.entry writer).isExpired now <;> by_cases h : writer = key <;> simp [h]

end Deposit

namespace FileStore

/-! ### Sequences of operations -/

variable {s : FileStore} {w : World} {past : List Event} {key : String} {r : Deposit}

/-- The world after an operation. -/
def after (s : FileStore) (w : World) : Op → World
  | .get key => ((s.get key).run w).2
  | .set key data ttl => ((s.set key data ttl).run w).2
  | .delete key => ((s.delete key).run w).2
  | .clear => (s.clear.run w).2

/-- An operation that is to change files does so without a failure. Clearing takes a directory that
is not found for an empty one, so for it this includes that such a directory is indeed missing. -/
def Succeeds (s : FileStore) (w : World) : Op → Prop
  | .get _ => True
  | .set key data ttl => ((s.set key data ttl).run w).1 = .ok ()
  | .delete key => ((s.delete key).run w).1 = .ok ()
  | .clear => (s.clear.run w).1.2 = .ok () ∧ (w.files.list s.dir = .error .missing →
      w.files.list (Path.clean s.dir) = .error .missing)

/-- The trees that operations can lead to, run one after the other at times that do not decrease.
Between two operations anything but the files may change. -/
inductive Reaches (s : FileStore) (start : FileTree) : List Event → FileTree → Prop
  | start : Reaches s start [] start
  | step {past : List Event} {w : World} {op : Op} (before : Reaches s start past w.files)
      (latest : ∀ e ∈ past, e.time ≤ w.now) (year : Time.Moment.zero ≤ w.now)
      (ok : s.Succeeds w op) :
      Reaches s start (past ++ [⟨w.now, op⟩]) (s.after w op).files

/-- What each operation can do to the files. -/
inductive Step (s : FileStore) (now : ℤ) : Op → FileTree → FileTree → Prop
  | look {key : String} {t : FileTree} : Step s now (.get key) t t
  | sweep {key : String} {t t' : FileTree} {bytes : ByteArray}
      (read : t.read (s.entryPath key) = .ok bytes) (stale : fresh? key now bytes = none)
      (forgotten : s.Forgotten key t t') : Step s now (.get key) t t'
  | store {key : String} {r : Deposit} {t t' : FileTree} (time : r.time = now)
      (writable : (r.entry key).isWritable = true) (stored : s.Stored key (r.bytes key) t t') :
      Step s now (.set key r.data r.ttl) t t'
  | forget {key : String} {t t' : FileTree} (forgotten : s.Forgotten key t t') :
      Step s now (.delete key) t t'
  | clear {t t' : FileTree} (cleared : s.Cleared t t') : Step s now .clear t t'

/-- Reading leaves the files alone, or removes one that gives nothing. -/
theorem step_of_get (h : s.IsProper) (w : World) (key : String) :
    s.Step w.now (.get key) w.files ((s.get key).run w).2.files := by
  cases hread : w.files.read (s.entryPath key) with
  | error e =>
    rw [get_run_of_error hread]
    exact .look
  | ok bytes =>
    rw [get_run_of_read hread]
    cases hfresh : fresh? key w.now bytes with
    | none => exact .sweep hread hfresh (forgotten_drop h key w.files)
    | some data => exact .look

theorem step_of_succeeds (h : s.IsProper) {op : Op} (hok : s.Succeeds w op) :
    s.Step w.now op w.files (s.after w op).files := by
  cases op with
  | get key => exact step_of_get h w key
  | set key data ttl =>
    obtain ⟨hw, hstored⟩ := stored_of_set h hok
    exact Step.store (r := ⟨w.now, data, ttl⟩) rfl hw hstored
  | delete key => exact .forget (forgotten_of_delete h hok)
  | clear => exact .clear (cleared_of_clear h hok.2 hok.1)

/-! ### Files of other keys -/

variable {t t' : FileTree} {other : String} {c : ByteArray}

theorem entryPlace_ne (h : s.digest other.toUTF8 ≠ s.digest key.toUTF8) :
    s.entryPlace other ≠ s.entryPlace key := fun heq => h ((entryPlace_inj s).1 heq)

theorem read_entry_iff (h : s.IsProper) : t.read (s.entryPath key) = .ok c ↔
    t.Leads (s.entryPath key) ∧ t.get? (s.entryPlace key) = some (.file c) := by
  rw [FileTree.read_eq_ok_iff, h.placeOf_entryPath]

theorem Forgotten.leads (h : s.IsProper) (hf : s.Forgotten key t t')
    (hl : t.Leads (s.entryPath other)) : t'.Leads (s.entryPath other) := by
  refine h.leads_congr hl fun q hq hdir => ?_
  rwa [hf.rest q (hq key)]

theorem Stored.leads (h : s.IsProper) (hs : s.Stored key c t t')
    (hl : t.Leads (s.entryPath other)) : t'.Leads (s.entryPath other) :=
  h.leads_congr hl fun q _ => hs.directories q

theorem Forgotten.read_other (h : s.IsProper) (hf : s.Forgotten key t t')
    (hne : s.digest other.toUTF8 ≠ s.digest key.toUTF8)
    (hread : t.read (s.entryPath other) = .ok c) : t'.read (s.entryPath other) = .ok c := by
  rw [read_entry_iff h] at hread ⊢
  rw [hf.rest _ (entryPlace_ne hne)]
  exact ⟨hf.leads h hread.1, hread.2⟩

theorem Stored.read_other {content : ByteArray} (h : s.IsProper) (hs : s.Stored key content t t')
    (hne : s.digest other.toUTF8 ≠ s.digest key.toUTF8)
    (hread : t.read (s.entryPath other) = .ok c) : t'.read (s.entryPath other) = .ok c := by
  rw [read_entry_iff h] at hread ⊢
  rw [hs.files other (entryPlace_ne hne)]
  exact ⟨hs.leads h hread.1, hread.2⟩

/-! ### Where files come from -/

/-- The file of a key is the one that was there at first: nothing was stored in its place. -/
structure Untouched (s : FileStore) (start : FileTree) (past : List Event) (key : String)
    (bytes : ByteArray) : Prop where
  first : start.get? (s.entryPlace key) = some (.file bytes)
  never : ∀ e ∈ past, ∀ writer data ttl, e.op = .set writer data ttl →
    s.digest writer.toUTF8 ≠ s.digest key.toUTF8

/-- The file of a key is that of what is held under a key, which has the same file. -/
structure Kept (s : FileStore) (past : List Event) (t : FileTree) (key : String)
    (bytes : ByteArray) (writer : String) (r : Deposit) : Prop where
  same : s.digest writer.toUTF8 = s.digest key.toUTF8
  held : held past writer = some r
  bytes : bytes = r.bytes writer
  writable : (r.entry writer).isWritable = true
  leads : t.Leads (s.entryPath writer)

/-- The file of a key is an old one, or that of what is held. -/
def Origin (s : FileStore) (start : FileTree) (past : List Event) (t : FileTree) (key : String)
    (bytes : ByteArray) : Prop :=
  s.Untouched start past key bytes ∨ ∃ writer r, s.Kept past t key bytes writer r

variable {start : FileTree} {bytes : ByteArray} {op : Op} {now : ℤ}

theorem Untouched.concat (h : s.Untouched start past key bytes)
    (hop : ∀ writer data ttl, op = .set writer data ttl →
      s.digest writer.toUTF8 ≠ s.digest key.toUTF8) :
    s.Untouched start (past ++ [⟨now, op⟩]) key bytes := by
  refine ⟨h.first, fun e he => ?_⟩
  rcases List.mem_append.1 he with he | he
  · exact h.never e he
  · rw [List.mem_singleton.1 he]
    exact hop

/-- A file stays as it is through an operation that neither writes it nor decides what is held. -/
theorem Origin.concat (h : s.Origin start past t key bytes)
    (hset : ∀ writer data ttl, op = .set writer data ttl →
      s.digest writer.toUTF8 ≠ s.digest key.toUTF8)
    (hkept : ∀ writer r, s.Kept past t key bytes writer r →
      ¬op.Decides writer ∧ t'.Leads (s.entryPath writer)) :
    s.Origin start (past ++ [⟨now, op⟩]) t' key bytes := by
  rcases h with hold | ⟨writer, r, hk⟩
  · exact Or.inl (hold.concat hset)
  · obtain ⟨hdecides, hleads⟩ := hkept writer r hk
    refine Or.inr ⟨writer, r, hk.same, ?_, hk.bytes, hk.writable, hleads⟩
    rw [held_of_not_decides hdecides, hk.held]

/-- One operation leaves each file with an origin. -/
theorem Step.origin (h : s.IsProper) (hstep : s.Step now op t t')
    (ho : ∀ key bytes, t.get? (s.entryPlace key) = some (.file bytes) →
      s.Origin start past t key bytes)
    (hfile : t'.get? (s.entryPlace key) = some (.file bytes)) :
    s.Origin start (past ++ [⟨now, op⟩]) t' key bytes := by
  cases hstep with
  | look => exact (ho key bytes hfile).concat (by simp) fun writer r hk => ⟨id, hk.leads⟩
  | sweep hread hstale hf =>
    exact (ho key bytes (hf.shrinks _ _ hfile)).concat (by simp) fun writer r hk =>
      ⟨id, hf.leads h hk.leads⟩
  | @store target r _ _ htime hw hs =>
    by_cases hsame : s.digest target.toUTF8 = s.digest key.toUTF8
    · -- the file is the one that was just written
      obtain ⟨hleads, hcontent⟩ := (read_entry_iff h).1 hs.read
      rw [(entryPlace_inj s).2 hsame, hfile] at hcontent
      refine Or.inr ⟨target, r, hsame, ?_, by simpa using hcontent, hw, hleads⟩
      rw [← htime, held_set]
    · have hother : s.entryPlace key ≠ s.entryPlace target :=
        entryPlace_ne fun heq => hsame heq.symm
      have hbefore := (hs.files key hother bytes).1 hfile
      refine (ho key bytes hbefore).concat ?_ fun writer r hk => ⟨?_, ?_⟩
      · rintro writer data ttl ⟨⟩
        exact hsame
      · rintro rfl
        exact hsame hk.same
      · exact hs.leads h hk.leads
  | @forget target _ _ hf =>
    refine (ho key bytes (hf.shrinks _ _ hfile)).concat (by simp) fun writer r hk =>
      ⟨?_, hf.leads h hk.leads⟩
    -- what is held under the key could still be read
    rintro rfl
    refine hf.gone bytes ((read_entry_iff h).2 ⟨hf.leads h hk.leads, ?_⟩)
    rw [(entryPlace_inj s).2 hk.same, hfile]
  | clear hc =>
    have hbefore := hc.shrinks _ _ hfile
    refine (ho key bytes hbefore).concat (by simp) fun writer r hk => ?_
    -- what is held was readable, so its file is gone
    rw [← (entryPlace_inj s).2 hk.same] at hbefore hfile
    exact absurd hfile (hc.gone writer bytes ((read_entry_iff h).2 ⟨hk.leads, hbefore⟩) bytes)

/-- Whatever operations were run, each file is one that was there at first or that of what is
held. -/
theorem Reaches.origin (h : s.IsProper) (hr : s.Reaches start past t)
    (hfile : t.get? (s.entryPlace key) = some (.file bytes)) :
    s.Origin start past t key bytes := by
  induction hr generalizing key bytes with
  | start => exact Or.inl ⟨hfile, by simp⟩
  | step _ _ _ hok ih => exact (step_of_succeeds h hok).origin h (fun _ _ => ih) hfile

/-- No operation was run before the first moment. -/
theorem Reaches.zero_le (hr : s.Reaches start past t) {e : Event} (he : e ∈ past) :
    Time.Moment.zero ≤ e.time := by
  induction hr with
  | start => cases he
  | step _ _ hyear _ ih =>
    rcases List.mem_append.1 he with he | he
    · exact ih he
    · rw [List.mem_singleton.1 he]
      exact hyear

theorem Reaches.zero_le_held (hr : s.Reaches start past t) (hheld : held past key = some r) :
    Time.Moment.zero ≤ r.time := hr.zero_le (mem_of_held hheld)

/-! ### What can be read -/

/-- No operation was about another key with the file of this one. -/
def Alone (s : FileStore) (past : List Event) (key : String) : Prop :=
  ∀ e ∈ past, ∀ other, e.op.key? = some other →
    s.digest other.toUTF8 = s.digest key.toUTF8 → other = key

/-- The file of what is held can be read. -/
structure Readable (s : FileStore) (t : FileTree) (key : String) (r : Deposit) : Prop where
  read : t.read (s.entryPath key) = .ok (r.bytes key)
  writable : (r.entry key).isWritable = true

/-- One operation leaves what is held and still valid readable. -/
theorem Step.readable (h : s.IsProper) (hstep : s.Step now op t t')
    (halone : ∀ other, op.key? = some other → s.digest other.toUTF8 = s.digest key.toUTF8 →
      other = key)
    (hbefore : held past key = some r → s.Readable t key r ∧ Time.Moment.zero ≤ r.time)
    (hheld : held (past ++ [⟨now, op⟩]) key = some r) (hlive : r.IsLive now) :
    s.Readable t' key r := by
  have hne : ∀ target, op.key? = some target → target ≠ key →
      s.digest key.toUTF8 ≠ s.digest target.toUTF8 := fun target ht hkey heq =>
    hkey (halone target ht heq.symm)
  cases hstep with
  | look => exact (hbefore ((held_of_not_decides id).symm.trans hheld)).1
  | @sweep target _ _ content hread hstale hf =>
    rw [held_of_not_decides id] at hheld
    obtain ⟨hr, hz⟩ := hbefore hheld
    by_cases hkey : target = key
    · -- a file that is still valid is not removed
      subst hkey
      obtain rfl : r.bytes target = content := Except.ok.inj (hr.read.symm.trans hread)
      rw [(Deposit.fresh?_bytes hr.writable hz).2 ⟨rfl, hlive, rfl⟩] at hstale
      cases hstale
    · exact ⟨hf.read_other h (hne target rfl hkey) hr.read, hr.writable⟩
  | @store target r' _ _ htime hw hs =>
    by_cases hkey : (Op.set target r'.data r'.ttl).Decides key
    · obtain rfl : target = key := hkey
      obtain rfl : r' = r := by
        rw [← htime, held_set] at hheld
        exact Option.some.inj hheld
      exact ⟨hs.read, hw⟩
    · rw [held_of_not_decides hkey] at hheld
      obtain ⟨hr, -⟩ := hbefore hheld
      exact ⟨hs.read_other h (hne target rfl hkey) hr.read, hr.writable⟩
  | @forget target _ _ hf =>
    by_cases hkey : (Op.delete target).Decides key
    · obtain rfl : target = key := hkey
      rw [held_delete] at hheld
      cases hheld
    · rw [held_of_not_decides hkey] at hheld
      obtain ⟨hr, -⟩ := hbefore hheld
      exact ⟨hf.read_other h (hne target rfl hkey) hr.read, hr.writable⟩
  | clear hc =>
    rw [held_clear] at hheld
    cases hheld

/-- Whatever operations were run, what is held and still valid can be read. -/
theorem Reaches.readable (h : s.IsProper) (hr : s.Reaches start past t) (halone : s.Alone past key)
    (hnow : ∀ e ∈ past, e.time ≤ now) (hheld : held past key = some r) (hlive : r.IsLive now) :
    s.Readable t key r := by
  induction hr with
  | start => cases hheld
  | @step past w op before hlatest hyear hok ih =>
    have hlast : w.now ≤ now := hnow ⟨w.now, op⟩ (by simp)
    refine (step_of_succeeds h hok).readable h (halone ⟨w.now, op⟩ (by simp)) (fun hheld => ?_)
      hheld (hlive.mono hlast)
    exact ⟨ih (fun e he => halone e (by simp [he])) (fun e he => hnow e (by simp [he])) hheld,
      before.zero_le_held hheld⟩

/-! ### Reading -/

/-- There is no file of the key, or it holds no entry of the key that is still valid: it is
damaged, of another key, or expired. -/
def IsStale (s : FileStore) (w : World) (key : String) : Prop :=
  w.files.read (s.entryPath key) = .error .missing ∨
    ∃ bytes, w.files.read (s.entryPath key) = .ok bytes ∧
      ∀ e, Entry.parse? bytes = some e → e.key ≠ key ∨ e.isExpired w.now = true

theorem fresh?_eq_none (h : ∀ e, Entry.parse? bytes = some e →
    e.key ≠ key ∨ e.isExpired now = true) : fresh? key now bytes = none := by
  unfold fresh?
  cases hparse : Entry.parse? bytes with
  | none => rfl
  | some e =>
    rcases h e hparse with hkey | hexpired
    · simp [hkey]
    · simp [hexpired]

/-- A file that gives nothing is not found afterwards. -/
theorem get_of_isStale (h : s.IsProper) (hs : s.IsStale w key) :
    ((s.get key).run w).1 = .ok none ∧
      ((s.get key).run w).2.files.read (s.entryPath key) = .error .missing := by
  rcases hs with hmissing | ⟨bytes, hread, hstale⟩
  · rw [get_run_of_error hmissing]
    exact ⟨rfl, hmissing⟩
  · rw [get_run_of_read hread, fresh?_eq_none hstale]
    exact ⟨rfl, read_drop h hread⟩

/-- Reading through a store is reading the map of what is held. What is found is the data of an
untouched old file, or what is held under the key and still valid. All that is held and valid is
found, unless keys that were used share a file. And what gives nothing is a miss, and gone. -/
theorem get_refines_held (h : s.IsProper) (hr : s.Reaches start past w.files)
    (hnow : ∀ e ∈ past, e.time ≤ w.now) (key : String) :
    (∀ data, ((s.get key).run w).1 = .ok (some data) →
      (∃ bytes, s.Untouched start past key bytes ∧ fresh? key w.now bytes = some data) ∨
        ∃ r, held past key = some r ∧ r.IsLive w.now ∧ r.data = data) ∧
    (Set.InjOn (fun k : String => s.digest k.toUTF8)
        (insert key {k | ∃ e ∈ past, e.op.key? = some k}) →
      ∀ r, held past key = some r → r.IsLive w.now →
        ((s.get key).run w).1 = .ok (some r.data)) ∧
    (s.IsStale w key → ((s.get key).run w).1 = .ok none ∧
      ((s.get key).run w).2.files.read (s.entryPath key) = .error .missing) := by
  refine ⟨fun data hget => ?_, fun hinj r hheld hlive => ?_, get_of_isStale h⟩
  · obtain ⟨bytes, hread, hfresh⟩ := get_eq_some_iff.1 hget
    rcases hr.origin h ((read_entry_iff h).1 hread).2 with hold | ⟨writer, r, hk⟩
    · exact Or.inl ⟨bytes, hold, hfresh⟩
    · rw [hk.bytes, Deposit.fresh?_bytes hk.writable (hr.zero_le_held hk.held)] at hfresh
      obtain ⟨rfl, hlive, hdata⟩ := hfresh
      exact Or.inr ⟨r, hk.held, hlive, hdata⟩
  · have halone : s.Alone past key := fun e he other hother heq =>
      hinj (Or.inr ⟨e, he, hother⟩) (Or.inl rfl) heq
    have hread := hr.readable h halone hnow hheld hlive
    refine get_eq_some_iff.2 ⟨_, hread.read, ?_⟩
    exact (Deposit.fresh?_bytes hread.writable (hr.zero_le_held hheld)).2 ⟨rfl, hlive, rfl⟩

/-! ### Running a history -/

/-- The files after operations at their times. -/
def run (s : FileStore) : FileTree → List Event → FileTree
  | t, [] => t
  | t, e :: es => s.run (s.after { files := t, now := e.time } e.op).files es

/-- The operations can be run one after the other: no clock is set back, and none of them fails. -/
def Runs (s : FileStore) : FileTree → (since : ℤ) → List Event → Prop
  | _, _, [] => True
  | t, since, e :: es => since ≤ e.time ∧ s.Succeeds { files := t, now := e.time } e.op ∧
      s.Runs (s.after { files := t, now := e.time } e.op).files e.time es

instance decidableSucceeds (s : FileStore) (w : World) : (op : Op) → Decidable (s.Succeeds w op)
  | .get _ => inferInstanceAs (Decidable True)
  | .set _ _ _ | .delete _ => inferInstanceAs (Decidable (_ = _))
  | .clear => inferInstanceAs (Decidable (_ ∧ _))

instance decidableRuns (s : FileStore) :
    (t : FileTree) → (since : ℤ) → (es : List Event) → Decidable (s.Runs t since es)
  | _, _, [] => inferInstanceAs (Decidable True)
  | t, _, e :: es =>
    have := s.decidableRuns (s.after { files := t, now := e.time } e.op).files e.time es
    inferInstanceAs (Decidable (_ ∧ _ ∧ _))

/-- What can be run leads to the files that it is run to. -/
theorem Runs.reaches {since : ℤ} {es : List Event} (h : s.Runs t since es)
    (hr : s.Reaches start past t) (hpast : ∀ e ∈ past, e.time ≤ since)
    (hyear : Time.Moment.zero ≤ since) : s.Reaches start (past ++ es) (s.run t es) := by
  induction es generalizing past t since with
  | nil =>
    rw [List.append_nil]
    exact hr
  | cons e es ih =>
    obtain ⟨hsince, hok, hrest⟩ := h
    have hbefore : ∀ x ∈ past, x.time ≤ e.time := fun x hx => (hpast x hx).trans hsince
    have hone := Reaches.step (w := { files := t, now := e.time }) hr hbefore (hyear.trans hsince) hok
    rw [List.append_cons]
    refine ih hrest hone (fun x hx => ?_) (hyear.trans hsince)
    rcases List.mem_append.1 hx with hold | hnew
    · exact hbefore x hold
    · rw [List.mem_singleton.1 hnew]

/-- A store that tells keys apart by their first bytes. -/
def byFirst : FileStore where
  dir := "c"
  digest bytes := String.ofList
    (Text.hexDigits 2 (bytes.data.toList.headD 0).toNat ++ List.replicate 62 '0')

theorem isProper_byFirst : byFirst.IsProper := by
  have hall : ∀ n < 256, isHashName 64 (Text.hexDigits 2 n ++ List.replicate 62 '0') = true := by
    decide +kernel
  refine ⟨by decide, fun bytes => ?_⟩
  rw [byFirst, String.toList_ofList]
  exact hall _ (bytes.data.toList.headD 0).toNat_lt

/-- An old file stands in the place of a key and is damaged. -/
def oldFiles : FileTree := ⟨[
  (["c"], .directory),
  (["c", "6b"], .directory),
  (byFirst.entryPlace "k", .file "damaged".toUTF8)]⟩

/-- All is cleared, two keys are used, one is stored again for an hour, and the other is deleted. -/
def changes : List Event := [
  ⟨0, .set "k" ⟨#[1]⟩ 0⟩,
  ⟨1, .clear⟩,
  ⟨2, .set "d" ⟨#[2]⟩ 0⟩,
  ⟨3, .set "k" ⟨#[3]⟩ 0⟩,
  ⟨4, .set "k" ⟨#[4]⟩ 3600000000000⟩,
  ⟨5, .delete "d"⟩]

@[irreducible] def changedFiles : FileTree := byFirst.run oldFiles changes

theorem reaches_changes : byFirst.Reaches oldFiles changes changedFiles := by
  have hruns : byFirst.Runs oldFiles Time.Moment.zero changes := by decide +kernel
  unfold changedFiles
  exact hruns.reaches .start (by simp) le_rfl

theorem injOn_changes : Set.InjOn (fun k : String => byFirst.digest k.toUTF8)
    (insert "k" {k | ∃ e ∈ changes, e.op.key? = some k}) := by
  have hops : ∀ e ∈ changes, ∀ k, e.op.key? = some k → k ∈ ["k", "d"] := by
    simp [changes, Op.key?]
  have hkeys : ∀ k, k = "k" ∨ (∃ e ∈ changes, e.op.key? = some k) → k ∈ ["k", "d"] := by
    rintro k (rfl | ⟨e, he, hk⟩)
    · exact List.mem_cons_self
    · exact hops e he k hk
  have hdigest : ∀ a ∈ ["k", "d"], ∀ b ∈ ["k", "d"],
      byFirst.digest a.toUTF8 = byFirst.digest b.toUTF8 → a = b := by decide +kernel
  exact fun a ha b hb => hdigest a (hkeys a ha) b (hkeys b hb)

/-- Half an hour later the data that were stored again are found. What was deleted is not, and the
damaged file would have been a miss, and gone. -/
theorem get_refines_held_of_changes : byFirst.IsProper ∧
    byFirst.Reaches oldFiles changes changedFiles ∧
    ((byFirst.get "k").run { files := changedFiles, now := 1800000000000 }).1 =
      .ok (some ⟨#[4]⟩) ∧
    (∀ data, ((byFirst.get "d").run { files := changedFiles, now := 1800000000000 }).1 ≠
      .ok (some data)) ∧
    ((byFirst.get "k").run { files := oldFiles }).1 = .ok none ∧
    ((byFirst.get "k").run { files := oldFiles }).2.files.read (byFirst.entryPath "k") =
      .error .missing := by
  have hnow : ∀ e ∈ changes, e.time ≤ 1800000000000 := by simp [changes]
  have hfound := (get_refines_held (w := { files := changedFiles, now := 1800000000000 })
    isProper_byFirst reaches_changes hnow "k").2.1 injOn_changes
  have hdeleted := (get_refines_held (w := { files := changedFiles, now := 1800000000000 })
    isProper_byFirst reaches_changes hnow "d").1
  have hold : byFirst.Reaches oldFiles [] oldFiles := .start
  have hdamaged := (get_refines_held (w := { files := oldFiles }) isProper_byFirst hold (by simp)
    "k").2.2
  have hk : held changes "k" = some ⟨4, ⟨#[4]⟩, 3600000000000⟩ := rfl
  have hd : held changes "d" = none := rfl
  refine ⟨isProper_byFirst, reaches_changes, hfound _ hk (Or.inr (by decide)), fun data hget => ?_,
    hdamaged (Or.inr ⟨"damaged".toUTF8, by decide +kernel, ?_⟩)⟩
  · rcases hdeleted data hget with ⟨bytes, hold, -⟩ | ⟨r, hheld, -⟩
    · exact hold.never ⟨2, .set "d" ⟨#[2]⟩ 0⟩ (by simp [changes]) _ _ _ rfl rfl
    · rw [hd] at hheld
      cases hheld
  · have hparse : Entry.parse? "damaged".toUTF8 = none := by decide +kernel
    intro e he
    rw [hparse] at he
    cases he

end FileStore
end Cache
end ApiDiagrams
