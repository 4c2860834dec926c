import ApiDiagrams.Proofs.Data.Keys
import ApiDiagrams.Yaml.Read

/-!
# Unknown keys in YAML

A mapping gives a record its own pairs and, behind them, those of the mappings that it takes over.
Of several pairs of one name only the first is read, and a pair without a key is passed over. Every
other key must name a field, so a document with a stray key is refused.

* `Node.target?`, `Key.of`: what a node stands for, and what a key says;
* `Given`: the pairs that a mapping gives, in the order in which they are read;
* `Shows`: what a node shows;
* `Gives`: what a reader that succeeds has found;
* `ownPairs_null`: a pair whose key is null is passed over;
* `not_stray_of_read`: a document that is read has no stray key.
-/

namespace ApiDiagrams
namespace Yaml

open Data Read

/-! ### What a node shows -/

/-- What a node stands for: an alias for the node that was given its name, another for itself. -/
def Node.target? (anchored : List (Nat × Node)) : Node → Option Node
  | .aliasTo _ _ anchor => anchored.lookup anchor
  | n => some n

/-- What a key says. -/
inductive Key
  /-- There is no key. -/
  | null
  | name (s : String)
  /-- The key is no text. -/
  | other

namespace Key

/-- The key with a text, if it has one. -/
def ofText : Option Text.Raw → Key
  | none => .null
  | some s => .name s.lossy

/-- What a scalar says as a key; collections say nothing. -/
def ofScalar : Node → Key
  | .scalar tag text =>
    match resolve tag text with
    | some (.null, _) => .null
    | some (_, s) => .name s.lossy
    | none => .other
  | _ => .other

/-- What a node says as a key. -/
def of (anchored : List (Nat × Node)) (k : Node) : Key :=
  ((k.target? anchored).map ofScalar).getD .other

end Key

/-- The pairs of a mapping itself. -/
def ownOf (ps : List (Node × Node)) : List (Node × Node) := ps.filter fun p => !isMergeKey p.1

/-- What a mapping takes over. -/
def sourceOf? (ps : List (Node × Node)) : Option Node :=
  (ps.reverse.find? fun p => isMergeKey p.1).map (·.2)

/-- The mappings that are taken over with a node: those of a sequence, or the one. -/
def mappingsOf : Node → List Node
  | .sequence ns => ns
  | n => [n]

section

variable (anchored : List (Nat × Node))

mutual

/-- The pairs that a mapping gives, in the order in which they are read. -/
inductive Given : List (Node × Node) → List (Node × Node) → Prop
  | own {ps} (alone : sourceOf? ps = none) : Given ps (ownOf ps)
  | both {ps source more} (takes : sourceOf? ps = some source)
      (taken : Taken (mappingsOf source) more) : Given ps (ownOf ps ++ more)

/-- The pairs that mappings give which are taken over. -/
inductive Taken : List Node → List (Node × Node) → Prop
  | nil : Taken [] []
  | cons {n ps all ns more} (target : n.target? anchored = some (.mapping ps))
      (given : Given ps all) (rest : Taken ns more) : Taken (n :: ns) (all ++ more)

end

/-- The keys with their values, without those whose name was seen before. -/
def entriesFrom : (seen : List String) → List (Node × Node) → List (Option String × Node)
  | _, [] => []
  | seen, (k, v) :: rest =>
    match Key.of anchored k with
    | .null => entriesFrom seen rest
    | .other => (none, v) :: entriesFrom seen rest
    | .name s =>
      if s ∈ seen then entriesFrom seen rest else (some s, v) :: entriesFrom (s :: seen) rest

/-- What a node shows. No key stands in a scalar, so nothing is asked of one. -/
inductive Shows : Node → Shown Node → Prop
  | sequence {ns} : Shows (.sequence ns) (.list ns)
  | mapping {ps all} (given : Given anchored ps all) :
      Shows (.mapping ps) (.record (entriesFrom anchored [] all))
  | named {name occurrence anchor n s} (target : anchored.lookup anchor = some n)
      (shows : Shows n s) : Shows (.aliasTo name occurrence anchor) s

end

/-! ### What a reader has found -/

section Gives

variable {anchored : List (Nat × Node)} {α β : Type} {post : α → Prop} {post' : β → Prop}

/-- A reader that succeeds has found what `post` says. -/
def Gives (anchored : List (Nat × Node)) (x : Read α) (post : α → Prop) : Prop :=
  ∀ r a r', r.anchored = anchored → x.run r = some (a, r') → r'.anchored = anchored ∧ post a

theorem gives_pure {a : α} (h : post a) : Gives anchored (pure a) post := by
  intro r b r' hr hrun
  simp only [StateT.run_pure, Option.pure_def, Option.some.injEq, Prod.mk.injEq] at hrun
  obtain ⟨rfl, rfl⟩ := hrun
  exact ⟨hr, h⟩

theorem gives_failure : Gives anchored (failure : Read α) post := by
  intro r a r' _ hrun
  cases hrun

theorem Gives.bind {x : Read α} {f : α → Read β} (hx : Gives anchored x post)
    (hf : ∀ a, post a → Gives anchored (f a) post') : Gives anchored (x >>= f) post' := by
  intro r b r'' hr hrun
  simp only [StateT.run_bind, Option.bind_eq_bind, Option.bind_eq_some_iff] at hrun
  obtain ⟨⟨a, r'⟩, hxrun, hfrun⟩ := hrun
  obtain ⟨hr', hpost⟩ := hx r a r' hr hxrun
  exact hf a hpost r' b r'' hr' hfrun

theorem Gives.mono {x : Read α} {weak : α → Prop} (hx : Gives anchored x post)
    (h : ∀ a, post a → weak a) : Gives anchored x weak := fun r a r' hr hrun =>
  ⟨(hx r a r' hr hrun).1, h a (hx r a r' hr hrun).2⟩

theorem gives_lift {o : Option α} (h : ∀ a, o = some a → post a) :
    Gives anchored (liftM o : Read α) post := by
  intro r a r' hr hrun
  cases o with
  | none => cases hrun
  | some b =>
    cases hrun
    exact ⟨hr, h _ rfl⟩

theorem gives_failure_bind {f : β → Read α} : Gives anchored (failure >>= f) post := by
  have h : Gives anchored (failure : Read β) fun _ => False := gives_failure
  exact h.bind fun _ h => h.elim

theorem gives_forM {l : List β} {f : β → Read Unit} (h : ∀ x, Gives anchored (f x) fun _ => True) :
    Gives anchored (l.forM f) fun _ => True := by
  induction l with
  | nil => exact gives_pure trivial
  | cons x l ih => exact (h x).bind fun _ _ => ih

theorem gives_ite {c : Prop} [Decidable c] {x y : Read α} (hx : c → Gives anchored x post)
    (hy : ¬ c → Gives anchored y post) : Gives anchored (if c then x else y) post := by
  split
  · exact hx ‹_›
  · exact hy ‹_›

theorem gives_get : Gives anchored (get : Read Reader) fun r => r.anchored = anchored := by
  rintro r _ _ hr ⟨⟩
  exact ⟨hr, hr⟩

theorem gives_set {r : Reader} (h : r.anchored = anchored) :
    Gives anchored (set r : Read Unit) fun _ => True := by
  rintro _ _ _ _ ⟨⟩
  exact ⟨h, trivial⟩

theorem gives_modify {f : Reader → Reader} (h : ∀ r, (f r).anchored = r.anchored) :
    Gives anchored (modify f : Read Unit) fun _ => True := by
  rintro r _ _ hr ⟨⟩
  exact ⟨(h r).trans hr, trivial⟩

theorem gives_count : Gives anchored count fun _ => True := by
  refine gives_get.bind fun r hr => ?_
  dsimp only
  refine gives_ite (fun _ => gives_failure) fun _ => gives_set ?_
  exact hr

theorem gives_follow {occurrence anchor : Nat} {read : Node → Read α}
    (h : ∀ n, anchored.lookup anchor = some n → Gives anchored (read n) post) :
    Gives anchored (follow occurrence anchor read) post := by
  refine gives_get.bind fun r hr => gives_ite (fun _ => gives_failure) fun _ => ?_
  cases hn : r.anchored.lookup anchor with
  | none => exact gives_failure
  | some n =>
    rw [hr] at hn
    refine (gives_set ?_).bind fun _ _ => (h n hn).bind fun a ha =>
      (gives_modify fun r' => ?_).bind fun _ _ => gives_pure ha
    · exact hr
    · rfl

/-- A reader run on a node finds what it finds on the node that this stands for. -/
theorem gives_direct {read : Node → Read α} {n : Node}
    (h : ∀ m, n.target? anchored = some m → Gives anchored (read m) post) :
    Gives anchored (direct read n) post := by
  refine gives_count.bind fun _ _ => ?_
  cases n with
  | aliasTo name occurrence anchor =>
    exact gives_follow fun m hm => gives_count.bind fun _ _ => h m hm
  | _ => exact h _ rfl

end Gives

section

variable {anchored : List (Nat × Node)} {fields : List (String × Shape)}

theorem gives_scalarText (n : Node) :
    Gives anchored (scalarText n) fun t => Key.ofScalar n = .ofText t := by
  cases n with
  | scalar tag text =>
    refine (gives_lift fun _ h => h).bind fun a ha => ?_
    obtain ⟨m, s⟩ := a
    cases m <;> exact gives_pure (by simp [Key.ofScalar, ha, Key.ofText])
  | _ => exact gives_failure

theorem gives_scalarFlag (n : Node) : Gives anchored (scalarFlag n) fun _ => True := by
  cases n with
  | scalar tag text =>
    refine (gives_lift fun _ h => h).bind fun a ha => ?_
    obtain ⟨m, s⟩ := a
    cases m with
    | null => exact gives_pure trivial
    | bool b => exact gives_pure trivial
    | text => exact (gives_lift fun _ h => h).bind fun _ _ => gives_pure trivial
    | _ => exact gives_failure
  | _ => exact gives_failure

/-- Only a scalar is null. -/
theorem gives_isNull (n : Node) :
    Gives anchored (isNull n) fun b => b = true → ∃ tag text, n = .scalar tag text := by
  cases n with
  | scalar tag text =>
    exact (gives_lift fun _ h => h).bind fun _ _ => gives_pure fun _ => ⟨tag, text, rfl⟩
  | _ => exact gives_pure fun h => by cases h

theorem gives_key (k : Node) :
    Gives anchored (direct scalarText k) fun t => Key.of anchored k = .ofText t :=
  gives_direct fun m hm => (gives_scalarText m).mono fun t ht => by
    rw [Key.of, hm]
    exact ht

/-! ### Pairs without a key -/

theorem isMergeKey_of_null {tag text : String} {s : Text.Raw} (h : resolve tag text = some (.null, s)) :
    isMergeKey (.scalar tag text) = false := by
  rw [isMergeKey, Bool.and_eq_false_iff, decide_eq_false_iff_not]
  left
  rintro rfl
  rw [resolve, if_neg (by decide), if_pos (by decide)] at h
  cases h

/-- A pair whose key is null is passed over with its value, whatever that is. -/
theorem ownPairs_null {tag text : String} {s : Text.Raw} (h : resolve tag text = some (.null, s))
    (fuel : ℕ) (fields : List (String × Shape)) (takenOver : Bool) (v : Node)
    (rest : List (Node × Node)) (found : Found) :
    Read.ownPairs (fuel + 1) fields takenOver ((.scalar tag text, v) :: rest) found =
      count *> Read.ownPairs fuel fields takenOver rest found := by
  have hkey : direct scalarText (.scalar tag text) = count >>= fun _ => pure none := by
    simp only [direct, scalarText, h]
    rfl
  rw [Read.ownPairs, isMergeKey_of_null h, if_neg Bool.false_ne_true, hkey, bind_assoc]
  simp only [pure_bind]
  rfl

/-! ### Pairs that are read -/

/-- Reading pairs, after the names that were seen before: every name that is new is a field, and
what stands under it has no stray key. -/
inductive Sees (anchored : List (Nat × Node)) (fields : List (String × Shape)) :
    (seen : List String) → List (Node × Node) → (seen' : List String) → Prop
  | nil {seen} : Sees anchored fields seen [] seen
  | null {seen k v rest seen'} (key : Key.of anchored k = .null)
      (more : Sees anchored fields seen rest seen') :
      Sees anchored fields seen ((k, v) :: rest) seen'
  | again {seen k v rest seen' s} (key : Key.of anchored k = .name s) (old : s ∈ seen)
      (more : Sees anchored fields seen rest seen') :
      Sees anchored fields seen ((k, v) :: rest) seen'
  | first {seen k v rest seen' s shape} (key : Key.of anchored k = .name s) (new : s ∉ seen)
      (field : fields.lookup s = some shape) (below : ¬ Stray (Shows anchored) shape v)
      (more : Sees anchored fields (s :: seen) rest seen') :
      Sees anchored fields seen ((k, v) :: rest) seen'

theorem Sees.append {seen seen' seen'' : List String} {ps qs : List (Node × Node)}
    (h : Sees anchored fields seen ps seen') (h' : Sees anchored fields seen' qs seen'') :
    Sees anchored fields seen (ps ++ qs) seen'' := by
  induction h with
  | nil => exact h'
  | null key _ ih => exact .null key (ih h')
  | again key old _ ih => exact .again key old (ih h')
  | first key new field below _ ih => exact .first key new field below (ih h')

/-- What is shown of pairs that are read: only fields, with no stray key below them. -/
theorem Sees.known {seen seen' : List String} {ps : List (Node × Node)}
    (h : Sees anchored fields seen ps seen') : ∀ e ∈ entriesFrom anchored seen ps,
      ∃ s shape, e.1 = some s ∧ (s, shape) ∈ fields ∧ ¬ Stray (Shows anchored) shape e.2 := by
  induction h with
  | nil => simp [entriesFrom]
  | null key _ ih => simpa [entriesFrom, key] using ih
  | again key old _ ih => simpa [entriesFrom, key, old] using ih
  | first key new field below _ ih =>
    obtain ⟨before, after, hfields, -⟩ := List.lookup_eq_some_iff.1 field
    simp only [entriesFrom, key, if_neg new, List.forall_mem_cons]
    exact ⟨⟨_, _, rfl, by simp [hfields], below⟩, ih⟩

/-! ### Stray keys of nodes -/

theorem stray_target {shape : Shape} {n : Node} (h : Stray (Shows anchored) shape n) :
    ∃ m, n.target? anchored = some m ∧ Stray (Shows anchored) shape m := by
  cases n with
  | aliasTo name occurrence anchor =>
    cases h with
    | key shown mem unknown =>
      cases shown with
      | named target shows => exact ⟨_, target, .key shows mem unknown⟩
    | field shown mem known names below =>
      cases shown with
      | named target shows => exact ⟨_, target, .field shows mem known names below⟩
    | item shown mem below =>
      cases shown with
      | named target shows => exact ⟨_, target, .item shows mem below⟩
  | _ => exact ⟨_, rfl, h⟩

theorem not_stray_scalar {shape : Shape} {tag text : String} :
    ¬ Stray (Shows anchored) shape (.scalar tag text) := by
  rintro (⟨shown, -, -⟩ | ⟨shown, -, -, -, -⟩ | ⟨shown, -, -⟩) <;> cases shown

/-- Where a null is the only thing that may still stand, no key is stray. -/
theorem gives_if_null {α : Type} {shape : Shape} (n : Node) (a : α) :
    Gives anchored (isNull n >>= fun b => if b = true then pure a else failure) fun _ =>
      ¬ Stray (Shows anchored) shape n := by
  refine (gives_isNull n).bind fun b hb => gives_ite (fun h => ?_) fun _ => gives_failure
  obtain ⟨tag, text, rfl⟩ := hb h
  exact gives_pure not_stray_scalar

theorem not_stray_sequence {item : Shape} {ns : List Node}
    (h : ∀ n ∈ ns, ¬ Stray (Shows anchored) item n) :
    ¬ Stray (Shows anchored) (.list item) (.sequence ns) := by
  rintro (_ | _ | ⟨⟨⟩, hmem, hbelow⟩)
  exact h _ hmem hbelow

/-- A mapping whose pairs are read has no stray key. -/
theorem not_stray_mapping {ps : List (Node × Node)} (hd : areDistinct fields = true)
    (h : ∀ all, Given anchored ps all → ∃ seen, Sees anchored fields [] all seen) :
    ¬ Stray (Shows anchored) (.record fields) (.mapping ps) := by
  intro hstray
  cases hstray with
  | key shown mem unknown =>
    cases shown with
    | mapping given =>
      obtain ⟨seen, hsees⟩ := h _ given
      obtain ⟨s, shape, rfl, hfield, -⟩ := hsees.known _ mem
      exact unknown _ hfield (names_some.2 (Text.equalFold_refl s))
  | field shown mem known names below =>
    cases shown with
    | mapping given =>
      obtain ⟨seen, hsees⟩ := h _ given
      obtain ⟨s, shape, rfl, hfield, hnot⟩ := hsees.known _ mem
      -- the key is written as a field, so it names no other one
      cases eq_of_names hd known hfield names (names_some.2 (Text.equalFold_refl s))
      exact hnot below

/-! ### Reading -/

/-- With some fuel, whatever is read has no stray key. -/
structure ReadsKnown (anchored : List (Nat × Node)) (fuel : Nat) : Prop where
  value (shape : Shape) (n : Node) (hd : shape.isDistinct = true) :
    Gives anchored (value fuel shape n) fun _ => ¬ Stray (Shows anchored) shape n
  items (item : Shape) (ns : List Node) (hd : item.isDistinct = true) :
    Gives anchored (items fuel item ns) fun _ => ∀ n ∈ ns, ¬ Stray (Shows anchored) item n
  pairs (fields : List (String × Shape)) (takenOver : Bool) (ps : List (Node × Node))
    (found : Found) (hd : areDistinct fields = true) :
    Gives anchored (pairs fuel fields takenOver ps found) fun found' =>
      ∀ all, Given anchored ps all → Sees anchored fields found.names all found'.names
  ownPairs (fields : List (String × Shape)) (takenOver : Bool) (ps : List (Node × Node))
    (found : Found) (hd : areDistinct fields = true) :
    Gives anchored (ownPairs fuel fields takenOver ps found) fun found' =>
      Sees anchored fields found.names (ownOf ps) found'.names
  sources (fields : List (String × Shape)) (ns : List Node) (found : Found)
    (hd : areDistinct fields = true) :
    Gives anchored (sources fuel fields ns found) fun found' =>
      ∀ all, Taken anchored ns all → Sees anchored fields found.names all found'.names

theorem readsKnown_zero : ReadsKnown anchored 0 where
  value _ _ _ := gives_failure
  items _ _ _ := gives_failure
  pairs _ _ _ _ _ := gives_failure
  ownPairs _ _ _ _ _ := gives_failure
  sources _ _ _ _ := gives_failure

namespace ReadsKnown

variable {fuel : Nat} (ih : ReadsKnown anchored fuel)
include ih

/-- What is read through an alias is what it stands for. -/
theorem direct (shape : Shape) (n : Node) (hd : shape.isDistinct = true) :
    Gives anchored (Read.direct (Read.value fuel shape) n) fun _ =>
      ¬ Stray (Shows anchored) shape n := by
  refine gives_direct fun m hm => (ih.value shape m hd).mono fun _ hnot hstray => ?_
  obtain ⟨m', hm', hstray'⟩ := stray_target hstray
  rw [hm] at hm'
  cases hm'
  exact hnot hstray'

theorem value_succ (shape : Shape) (n : Node) (hd : shape.isDistinct = true) :
    Gives anchored (Read.value (fuel + 1) shape n) fun _ => ¬ Stray (Shows anchored) shape n := by
  unfold Read.value
  cases shape with
  | text => exact (gives_scalarText n).bind fun _ _ => gives_pure nofun
  | flag => exact (gives_scalarFlag n).bind fun _ _ => gives_pure nofun
  | span => exact gives_failure
  | list item =>
    cases n with
    | sequence ns =>
      exact (ih.items item ns hd).bind fun _ h => gives_pure (not_stray_sequence h)
    | _ => exact gives_if_null _ _
  | record fields =>
    cases n with
    | mapping ps =>
      exact (ih.pairs fields false ps {} hd).bind fun _ h =>
        gives_pure (not_stray_mapping hd fun all hall => ⟨_, h all hall⟩)
    | _ => exact gives_if_null _ _

theorem items_succ (item : Shape) (ns : List Node) (hd : item.isDistinct = true) :
    Gives anchored (Read.items (fuel + 1) item ns) fun _ =>
      ∀ n ∈ ns, ¬ Stray (Shows anchored) item n := by
  cases ns with
  | nil => exact gives_pure (by simp)
  | cons n rest =>
    unfold Read.items
    refine (ih.direct item n hd).bind fun _ hn => (ih.items item rest hd).bind fun _ hrest => ?_
    exact gives_pure (List.forall_mem_cons.2 ⟨hn, hrest⟩)

theorem pairs_succ (fields : List (String × Shape)) (takenOver : Bool) (ps : List (Node × Node))
    (found : Found) (hd : areDistinct fields = true) :
    Gives anchored (Read.pairs (fuel + 1) fields takenOver ps found) fun found' =>
      ∀ all, Given anchored ps all → Sees anchored fields found.names all found'.names := by
  unfold Read.pairs
  dsimp only
  refine gives_ite (fun _ => gives_failure_bind) fun _ => ?_
  refine (ih.ownPairs fields takenOver ps found hd).bind fun mid hmid => ?_
  -- The pairs of its own come first: a merged mapping only adds names they left free.
  generalize hfind : List.find? _ ps.reverse = merge
  have hsource : sourceOf? ps = merge.map (·.2) := by
    rw [← hfind]
    rfl
  cases merge with
  | none =>
    refine gives_pure fun all hall => ?_
    cases hall with
    | own alone => exact hmid
    | both takes taken => rw [hsource] at takes; cases takes
  | some p =>
    obtain ⟨k, source⟩ := p
    have hmore : Gives anchored (Read.sources fuel fields (mappingsOf source) mid) fun found' =>
        ∀ all, Given anchored ps all → Sees anchored fields found.names all found'.names := by
      refine (ih.sources fields (mappingsOf source) mid hd).mono fun found' h all hall => ?_
      cases hall with
      | own alone => rw [hsource] at alone; cases alone
      | both takes taken =>
        rw [hsource] at takes
        cases takes
        exact hmid.append (h _ taken)
    refine gives_ite (fun _ => (gives_forM fun _ => gives_count).bind fun _ _ => ?_) fun _ => ?_
    · cases source <;> exact hmore
    · cases source <;> exact hmore

theorem ownPairs_succ (fields : List (String × Shape)) (takenOver : Bool)
    (ps : List (Node × Node)) (found : Found) (hd : areDistinct fields = true) :
    Gives anchored (Read.ownPairs (fuel + 1) fields takenOver ps found) fun found' =>
      Sees anchored fields found.names (ownOf ps) found'.names := by
  cases ps with
  | nil => exact gives_pure .nil
  | cons p rest =>
    obtain ⟨k, v⟩ := p
    unfold Read.ownPairs
    refine gives_ite (fun hmerge => ?_) fun hown => ?_
    · have hrest : ownOf ((k, v) :: rest) = ownOf rest := by simp [ownOf, hmerge]
      rw [hrest]
      exact ih.ownPairs fields takenOver rest found hd
    have hfirst : ownOf ((k, v) :: rest) = (k, v) :: ownOf rest := by simp [ownOf, hown]
    rw [hfirst]
    refine (gives_key k).bind fun t ht => ?_
    -- A null key is passed over, and so is a name met before in a mapping that is merged in.
    cases t with
    | none => exact (ih.ownPairs fields takenOver rest found hd).mono fun _ h => .null ht h
    | some t =>
      refine gives_ite (fun hold => ?_) fun _ => ?_
      · simp only [Bool.and_eq_true, List.contains_iff_mem] at hold
        exact (ih.ownPairs fields takenOver rest found hd).mono fun _ h => .again ht hold.2 h
      cases hlookup : fields.lookup t.lossy with
      | none => exact gives_failure
      | some shape =>
        dsimp only
        refine gives_ite (fun _ => gives_failure_bind) fun hnew => ?_
        rw [List.contains_iff_mem] at hnew
        have hshape : shape.isDistinct = true := by
          obtain ⟨before, after, hfields, -⟩ := List.lookup_eq_some_iff.1 hlookup
          exact isDistinct_of_mem (f := (t.lossy, shape)) hd (by simp [hfields])
        exact (ih.direct shape v hshape).bind fun _ hv =>
          (ih.ownPairs fields takenOver rest _ hd).mono fun _ h => .first ht hnew hlookup hv h

theorem sources_succ (fields : List (String × Shape)) (ns : List Node) (found : Found)
    (hd : areDistinct fields = true) :
    Gives anchored (Read.sources (fuel + 1) fields ns found) fun found' =>
      ∀ all, Taken anchored ns all → Sees anchored fields found.names all found'.names := by
  cases ns with
  | nil =>
    refine gives_pure fun all hall => ?_
    cases hall
    exact .nil
  | cons n rest =>
    unfold Read.sources
    refine Gives.bind (gives_direct fun m hm => ?_ : Gives anchored _ fun mid => ∀ ps all,
      n.target? anchored = some (.mapping ps) → Given anchored ps all →
        Sees anchored fields found.names all mid.names)
      fun mid hmid => (ih.sources fields rest mid hd).mono fun _ h all hall => ?_
    · cases m with
      | mapping ps =>
        refine (ih.pairs fields true ps found hd).mono fun mid h ps' all htarget hall => ?_
        rw [hm] at htarget
        cases htarget
        exact h all hall
      | _ => exact gives_failure
    cases hall with
    | cons target given more => exact (hmid _ _ target given).append (h _ more)

theorem succ : ReadsKnown anchored (fuel + 1) where
  value := ih.value_succ
  items := ih.items_succ
  pairs := ih.pairs_succ
  ownPairs := ih.ownPairs_succ
  sources := ih.sources_succ

end ReadsKnown

/-- With any fuel, whatever is read has no stray key. -/
theorem readsKnown (anchored : List (Nat × Node)) (fuel : Nat) : ReadsKnown anchored fuel := by
  induction fuel with
  | zero => exact readsKnown_zero
  | succ fuel ih => exact ih.succ

/-- A document that is read has no stray key. -/
theorem not_stray_of_read {d : Document} {shape : Shape} {datum : Datum}
    (hd : shape.isDistinct = true) (h : d.read shape = some datum) :
    ¬ Stray (Shows d.anchored) shape d.root := by
  simp only [Document.read, Option.bind_eq_bind, Option.bind_eq_some_iff] at h
  obtain ⟨⟨found, r⟩, hrun, -⟩ := h
  have hgives (fuel : Nat) : Gives d.anchored
      (Read.count *> Read.direct (Read.value fuel shape) d.root) fun _ =>
        ¬ Stray (Shows d.anchored) shape d.root :=
    gives_count.bind fun _ _ => (readsKnown d.anchored fuel).direct shape d.root hd
  exact (hgives _ _ _ _ rfl hrun).2

/-- A key that is taken over through an alias can be stray. -/
example : Stray (Shows [(0, .mapping [(.scalar "!!str" "callr", .scalar "!!str" "a")])])
    (.record [("caller", .text)]) (.mapping [(.scalar "!!merge" "<<", .aliasTo ['a'] 0 0)]) :=
  .key (.mapping (.both rfl (.cons rfl (.own rfl) .nil))) List.mem_cons_self (by decide)

end

end Yaml
end ApiDiagrams
