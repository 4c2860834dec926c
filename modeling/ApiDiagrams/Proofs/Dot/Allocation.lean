import ApiDiagrams.Proofs.Dot.Drawing

/-!
# What a context gives out

However graphs and nodes are made on the graphs of one context, the names of the graphs are
distinct identifiers of bounded length, each is the first free choice for its title, and the nodes
are numbered through in the order in which they were made.

* `graphCalls`: the number of graphs asked for;
* `Allocated`: what holds of the names and numbers given out by a sequence of acts;
* `allocated_draw`: it holds of every sequence.
-/

namespace ApiDiagrams
namespace Dot

/-- The number of graphs that a sequence of acts asks for. -/
def graphCalls (acts : List Act) : ℕ := acts.countP Act.isNewGraph

namespace Canvas

variable {c : Canvas}

/-- The graphs by title and name, in the order in which they were made. -/
def titled (c : Canvas) : List (String × List Char) :=
  c.sheets.toList.map fun s => (s.frame.title, s.frame.uid.toList)

theorem names_eq (c : Canvas) : c.names = c.titled.map Prod.snd := by
  simp [names, titled]

theorem Kept.titled_newGraph (hc : c.Kept) (title body caption : String)
    (nodeDefaults edgeDefaults : List (String × String)) :
    (c.act (.newGraph title body caption nodeDefaults edgeDefaults)).titled =
      c.titled ++ [(title, c.nameOf title)] := by
  rw [hc.act_newGraph]
  simp [titled, freshSheet]

/-- Only new graphs get names, and no title and no name ever changes. -/
theorem Kept.titled_act (hc : c.Kept) {a : Act} (ha : a.isNewGraph = false) :
    (c.act a).titled = c.titled := by
  have hmodify : ∀ (g : ℕ) (f : Sheet → Sheet),
      (∀ s, ((f s).frame.title, (f s).frame.uid) = (s.frame.title, s.frame.uid)) →
      (c.sheets.modify g f).toList.map (fun s => (s.frame.title, s.frame.uid.toList)) =
        c.titled := by
    intro g f hf
    rw [Array.toList_modify]
    refine map_modify _ _ fun s => ?_
    obtain ⟨htitle, huid⟩ := Prod.mk.inj (hf s)
    rw [htitle, huid]
  cases a with
  | newGraph => cases ha
  | newNode g label richLabel attrs =>
    by_cases hb : g < c.sheets.size ∧ ¬ (label ≠ "" ∧ richLabel ≠ "")
    · obtain ⟨n, -, hn, -⟩ := hc.act_newNode hb.1 hb.2 attrs
      rw [hn]
      exact hmodify g _ fun s => rfl
    · rw [hc.act_newNode_of_refused hb]
  | addEdge g => exact hmodify g _ fun s => rfl
  | setLabel | setRichLabel | setPort | writeNode => rfl
  | writeEdge g => exact hmodify g _ fun s => rfl
  | writeNodeDefaults g => exact hmodify g _ fun s => rfl
  | writeEdgeDefaults g => exact hmodify g _ fun s => rfl

theorem Kept.names_newGraph (hc : c.Kept) (title body caption : String)
    (nodeDefaults edgeDefaults : List (String × String)) :
    (c.act (.newGraph title body caption nodeDefaults edgeDefaults)).names =
      c.names ++ [c.nameOf title] := by
  rw [names_eq, hc.titled_newGraph, List.map_append, ← names_eq]
  rfl

theorem Kept.names_act (hc : c.Kept) {a : Act} (ha : a.isNewGraph = false) :
    (c.act a).names = c.names := by
  rw [names_eq, names_eq, hc.titled_act ha]

end Canvas

/-- Every graph asked for has a name. -/
theorem length_names_draw (acts : List Act) : (draw acts).names.length = graphCalls acts := by
  induction acts using List.reverseRecOn with
  | nil => rfl
  | append_singleton acts a ih =>
    rw [draw_concat, graphCalls, List.countP_append, ← graphCalls, ← ih]
    cases a with
    | newGraph title body caption nodeDefaults edgeDefaults =>
      rw [(kept_draw acts).names_newGraph, List.length_append]
      rfl
    | _ =>
      rw [(kept_draw acts).names_act rfl]
      rfl

theorem length_le_of_mem_names {acts : List Act} (h : graphCalls acts < 2 ^ 63) :
    ∀ u ∈ (draw acts).names, u.length ≤ maxUidLength := by
  induction acts using List.reverseRecOn with
  | nil => exact fun u hu => by cases hu
  | append_singleton acts a ih =>
    have hle : graphCalls acts ≤ graphCalls (acts ++ [a]) := by
      rw [graphCalls, graphCalls, List.countP_append]
      omega
    specialize ih (hle.trans_lt h)
    rw [draw_concat]
    cases ha : a.isNewGraph with
    | false =>
      rw [(kept_draw acts).names_act ha]
      exact ih
    | true =>
      obtain ⟨title, body, caption, nodeDefaults, edgeDefaults, rfl⟩ :
          ∃ title body caption nodeDefaults edgeDefaults,
            a = .newGraph title body caption nodeDefaults edgeDefaults := by
        cases a <;> first | exact ⟨_, _, _, _, _, rfl⟩ | cases ha
      rw [(kept_draw acts).names_newGraph]
      intro u hu
      rcases List.mem_append.1 hu with hu | hu
      · exact ih u hu
      · rw [List.mem_singleton.1 hu]
        -- its number is at most two more than the number of names before it
        refine Context.length_freeUid_le _ (length_uidBase_le _) ?_
        rw [List.length_reverse, length_names_draw]
        omega

/-- What holds of the names and numbers that a sequence of acts gets. -/
structure Allocated (acts : List Act) : Prop where
  /-- No two graphs have the same name. -/
  distinct : (draw acts).names.Nodup
  /-- Names are made of small letters, digits and underscores, with no digit in front. -/
  legal : ∀ u ∈ (draw acts).names, IsUid u
  /-- A name has at least one byte. -/
  pos : ∀ u ∈ (draw acts).names, 1 ≤ (String.ofList u).utf8ByteSize
  /-- A name has at most thirty bytes, for all the graphs that a machine word can count. -/
  bounded : graphCalls acts < 2 ^ 63 →
    ∀ u ∈ (draw acts).names, (String.ofList u).utf8ByteSize ≤ maxUidLength
  /-- A new graph gets the first free choice for its title, and the others keep their names. -/
  named : ∀ title body caption nodeDefaults edgeDefaults, ∃ u,
    (draw (acts ++ [.newGraph title body caption nodeDefaults edgeDefaults])).names =
      (draw acts).names ++ [u] ∧
    Context.NameFor (draw acts).names (uidBase (Text.skeleton title.toList)) u
  /-- The context has reserved as many names as graphs were asked for. -/
  reserved : (draw acts).context.uids.length = graphCalls acts
  /-- Nodes are numbered through in the order in which they were made, whatever their graphs. -/
  numbered : (draw acts).nodes.toList.map Node.id = List.range (draw acts).nodes.size
  /-- A node that is accepted is one more node, of the next number. -/
  accepted : ∀ g < (draw acts).sheets.size, ∀ label richLabel attrs,
    ¬ (label ≠ "" ∧ richLabel ≠ "") → ∃ n,
      (draw acts).newNode g ⟨label, richLabel, .ofList attrs⟩ =
        .ok (n, draw (acts ++ [.newNode g label richLabel attrs])) ∧
      n.id = (draw acts).nodes.size ∧
      (draw (acts ++ [.newNode g label richLabel attrs])).nodes = (draw acts).nodes.push n
  /-- A node with both kinds of label is refused, which takes no number and changes no graph. -/
  refused : ∀ g < (draw acts).sheets.size, ∀ label richLabel attrs,
    label ≠ "" ∧ richLabel ≠ "" →
      (draw acts).newNode g ⟨label, richLabel, .ofList attrs⟩ =
        .error (.coded .contractViolation "node has both a label and a rich label") ∧
      draw (acts ++ [.newNode g label richLabel attrs]) = draw acts

/-- **Names and numbers are given out soundly by every sequence of acts.** -/
theorem allocated_draw (acts : List Act) : Allocated acts := by
  have hc := kept_draw acts
  refine ⟨hc.nodup, hc.isUid, fun u hu => ?_, fun h u hu => ?_, ?_, ?_, hc.ids, ?_, ?_⟩
  · rw [(hc.isUid u hu).utf8ByteSize]
    exact List.length_pos_iff.2 (hc.isUid u hu).ne_nil
  · rw [(hc.isUid u hu).utf8ByteSize]
    exact length_le_of_mem_names h u hu
  · intro title body caption nodeDefaults edgeDefaults
    rw [draw_concat, hc.names_newGraph]
    exact ⟨_, rfl, Canvas.nameFor_nameOf _ title⟩
  · rw [Canvas.context, hc.context, ← length_names_draw]
    simp
  · intro g hg label richLabel attrs hb
    obtain ⟨n, hnew, hact, hid, -⟩ := hc.act_newNode hg hb attrs
    rw [draw_concat, hact]
    exact ⟨n, hnew, hid, rfl⟩
  · intro g hg label richLabel attrs hb
    refine ⟨hc.newNode_of_both hg hb attrs, ?_⟩
    rw [draw_concat]
    exact hc.act_newNode_of_refused (fun h => h.2 hb) attrs

end Dot
end ApiDiagrams
