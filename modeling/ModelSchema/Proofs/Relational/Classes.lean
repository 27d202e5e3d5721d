/-
When registering classes keeps all of them. Every class claims its own
name as global id, so that no class is ever refused (`extend_none`); but it
is kept, and found again by relations, under its underscored name, and
underscoring may make two names one. Then the later class silently takes
the place of the earlier one. So the classes are all kept, and relations
find the classes they were declared with, exactly if the underscored names
are still pairwise different (`keepsClasses_iff`).
-/
import ModelSchema.Proofs.Registry.GlobalIds
import ModelSchema.Relational.Models

namespace ModelSchema

-- ============================================================ lower case

/-- Every letter has some lower case. -/
theorem Text.lowerChar_ne_nil (c : Char) : lowerChar c ≠ [] := by
  have hletters : ∀ e ∈ Case.lowerExpansions, e.2 ≠ [] := by decide
  unfold lowerChar
  split
  · exact List.cons_ne_nil _ _
  · unfold mapLetter
    split
    · next letters hfound =>
        obtain ⟨_, _, hmem, _⟩ := List.lookup_eq_some_iff.1 hfound
        have hmem : (c.toNat, letters) ∈ Case.lowerExpansions := by
          rw [hmem]
          exact List.mem_append_right _ List.mem_cons_self
        exact fun h => hletters _ hmem (List.map_eq_nil_iff.1 h)
    · split <;> exact List.cons_ne_nil _ _

theorem Text.lower_ne_empty {s : String} (h : s ≠ "") : lower s ≠ "" := by
  intro hlower
  have hnil : lowerFrom [] s.toList = [] := by
    rw [← String.toList_ofList (l := lowerFrom [] s.toList)]
    exact congrArg String.toList hlower
  match hcs : s.toList with
  | [] => exact h (String.toList_inj.1 hcs)
  | c :: rest =>
      rw [hcs, lowerFrom, List.append_eq_nil_iff] at hnil
      refine absurd hnil.1 ?_
      split
      · split <;> exact List.cons_ne_nil _ _
      · exact lowerChar_ne_nil c

namespace Relational

-- ======================================================== underscored names

theorem breakCapitals_ne_nil {cs : List Char} (h : cs ≠ []) : breakCapitals cs ≠ [] := by
  unfold breakCapitals
  split
  · split <;> exact List.cons_ne_nil _ _
  · exact h

theorem breakWords_ne_nil {cs : List Char} (h : cs ≠ []) : breakWords cs ≠ [] := by
  unfold breakWords
  split
  · split <;> exact List.cons_ne_nil _ _
  · exact h

/-- A name has an underscored form, which is no empty text. -/
theorem underscored_ne_empty {name : String} (h : name ≠ "") : underscored name ≠ "" := by
  have hcs : name.toList ≠ [] := fun hnil => h (String.toList_inj.1 hnil)
  refine Text.lower_ne_empty fun hempty => ?_
  have hmapped := congrArg String.toList hempty
  rw [String.toList_ofList] at hmapped
  exact breakWords_ne_nil (breakCapitals_ne_nil hcs) (List.map_eq_nil_iff.1 hmapped)

theorem underscored_empty : underscored "" = "" := by decide +kernel

-- ================================================================= classes

variable {classes : List Mapper} {c : Mapper} {r : Registry}

/-- The classes of a declarative base: they have different names, their
names are their global ids, and their relationships are attributes with
names of their own that point at one of them. -/
structure Mapped (classes : List Mapper) : Prop where
  nodup : (classes.map Mapper.name).Nodup
  named : ∀ c ∈ classes, c.name ≠ ""
  globalId : ∀ c ∈ classes, c.globalId = .str c.name
  attributes : ∀ c ∈ classes, (c.relationships.map Relationship.key).Nodup
  targets : ∀ c ∈ classes, ∀ rel ∈ c.relationships, ∃ t ∈ classes, t.name = rel.target

/-- What is asked of a registry for classes: each class has its model, which
has the class name as global id; there are no models besides; and for each
relationship of a class there is an attribute that leads to the model of
the class at its far end. -/
structure KeepsClasses (classes : List Mapper) (r : Registry) : Prop where
  registered : ∀ c ∈ classes, ∃ entry ∈ r.models,
    entry.2 = c.toModel ∧ entry.2.globalId = .str c.name
  count : r.models.length = classes.length
  resolves : ∀ c ∈ classes, ∀ rel ∈ c.relationships, ∃ a,
    c.toModel.attribute? rel.key = some a
      ∧ ∃ t ∈ classes, t.name = rel.target
        ∧ r.getModel a.target a.plugin = .ok t.toModel

/-- Where the model of a class is kept. -/
def Mapper.key (c : Mapper) : ModelKey := .ofTexts (none, underscored c.name)

/-- The models of classes with the keys under which they are kept, in the
order in which they are registered. -/
def keptPairs (classes : List Mapper) : List (ModelKey × Model) :=
  (inOrder classes).map fun c => (c.key, c.toModel)

/-- The offer of the model of a class to a registry. -/
def Mapper.offer (c : Mapper) : Registry.Offer :=
  .model none (underscored c.name) c.name c.toModel

theorem mem_inOrder : c ∈ inOrder classes ↔ c ∈ classes :=
  (List.mergeSort_perm classes _).mem_iff

theorem Mapper.key_beq (c c' : Mapper) :
    (c.key == c'.key) = (underscored c.name == underscored c'.name) := by
  unfold Mapper.key
  rw [ModelKey.ofTexts_beq]
  exact Bool.true_and _

theorem Mapper.answer_offer (h : c.globalId = .str c.name) (r : Registry) :
    c.offer.answer r = r.register c.toModel := by
  unfold offer Registry.Offer.answer Registry.Offer.entry toModel
  simp only [h, Value.ofOption]

theorem Mapper.model?_offer (h : c.globalId = .str c.name) :
    c.offer.model? = some ((none, underscored c.name), c.toModel) := by
  unfold offer Registry.Offer.model? Registry.Offer.entry toModel
  simp only [h, Value.ofOption]

-- ============================================================ registration

theorem filterMap_offers {cs : List Mapper} (h : ∀ c ∈ cs, c.globalId = .str c.name) :
    (cs.map Mapper.offer).filterMap Registry.Offer.model?
      = cs.map fun c => ((none, underscored c.name), c.toModel) := by
  induction cs with
  | nil => rfl
  | cons c cs ih =>
      rw [List.map_cons, List.filterMap_cons, Mapper.model?_offer (h c List.mem_cons_self),
        List.map_cons]
      exact congrArg (_ :: ·) (ih fun c hc => h c (List.mem_cons_of_mem _ hc))

/-- Registering classes is offering them, one after another. -/
theorem foldlM_register {cs : List Mapper} (h : ∀ c ∈ cs, c.globalId = .str c.name)
    (r : Registry) :
    cs.foldlM (fun r c => r.register c.toModel) r
      = (cs.map Mapper.offer).foldlM (fun r o => o.answer r) r := by
  induction cs generalizing r with
  | nil => rfl
  | cons c cs ih =>
      rw [List.map_cons, List.foldlM_cons, List.foldlM_cons,
        Mapper.answer_offer (h c List.mem_cons_self)]
      exact bind_congr fun r => ih (fun c hc => h c (List.mem_cons_of_mem _ hc)) r

/-- Offers that are coherent with a log are taken one after another. -/
theorem foldlM_answer {log os : List Registry.Offer} (h : Registry.Coherent (log ++ os)) :
    os.foldlM (fun r o => o.answer r) (Registry.ofLog log)
      = Except.ok (Registry.ofLog (log ++ os)) := by
  induction os generalizing log with
  | nil =>
      rw [List.append_nil]
      rfl
  | cons o os ih =>
      have hfree : ¬Registry.Blocks log o := by
        rintro ⟨o', ho', hother⟩
        exact h o (by simp) ⟨o', List.mem_append_left _ ho', hother⟩
      rw [List.append_cons] at h ⊢
      rw [List.foldlM_cons, Registry.answer_of_not_blocks hfree]
      exact ih h

/-- The offers of classes are coherent, as a class name is underscored in
one way only. -/
theorem coherent_offers (cs : List Mapper) :
    Registry.Coherent ([] ++ cs.map Mapper.offer) := by
  rintro o ho ⟨o', ho', hid, hlabel⟩
  obtain ⟨c, _, rfl⟩ := List.mem_map.1 ho
  obtain ⟨c', _, rfl⟩ := List.mem_map.1 ho'
  exact hlabel (congrArg underscored hid)

/-- Registering classes never fails, and a key has the model of the last of
the classes that share it. -/
theorem extend_none (h : Mapped classes) :
    ∃ r, extend none classes = .ok ⟨none, r⟩ ∧ r.models = Assoc.ofPairs (keptPairs classes) := by
  have hregister : register .empty classes
      = .ok (Registry.ofLog ([] ++ (inOrder classes).map Mapper.offer)) := by
    unfold register
    rw [foldlM_register fun c hc => h.globalId c (mem_inOrder.1 hc)]
    exact foldlM_answer (coherent_offers (inOrder classes))
  have hmodels := filterMap_offers fun c hc => h.globalId c (mem_inOrder.1 hc)
  refine ⟨_, congrArg (· >>= fun r => pure (Registration.mk none r)) hregister, ?_⟩
  show Assoc.ofPairs ((([] ++ _).filterMap Registry.Offer.model?).map _) = _
  rw [List.nil_append, hmodels, List.map_map]
  rfl

-- =========================================================== relationships

/-- The attribute of a relationship points at the underscored name of its
target, in the application. -/
theorem target_toAttribute (rel : Relationship) (h : rel.target ≠ "") :
    rel.toAttribute.target = .str (underscored rel.target)
      ∧ rel.toAttribute.plugin = .null := by
  have hgiven : (Value.str (underscored rel.target)).isGiven = true :=
    bne_iff_ne.2 (underscored_ne_empty h)
  unfold Relationship.toAttribute
  generalize Value.str (underscored rel.target) = target at hgiven
  split
  · exact ⟨rfl, rfl⟩
  · exact ⟨if_pos hgiven, rfl⟩

/-- A relationship's attribute is found under its name, even where a column
has that name. -/
theorem attribute?_toModel (h : (c.relationships.map Relationship.key).Nodup)
    {rel : Relationship} (hrel : rel ∈ c.relationships) :
    c.toModel.attribute? rel.key = some rel.toAttribute := by
  have hdistinct : Assoc.Distinct
      (c.relationships.map fun r => (r.key, r.toAttribute)) := by
    unfold Assoc.Distinct
    rw [List.map_map]
    exact h.imp fun hne => beq_eq_false_iff_ne.2 hne
  have hmem := List.mem_map_of_mem (f := fun r : Relationship =>
    (r.key, r.toAttribute)) hrel
  show Assoc.get? (Assoc.putAll [] (_ ++ _)) rel.key = _
  rw [Assoc.putAll_append, Assoc.get?_putAll hdistinct, Assoc.get?_of_mem hdistinct hmem]
  rfl

/-- The application's model of a key that a registry has is found by name. -/
theorem getModel_of_get? {name : String} {m : Model}
    (h : Assoc.get? r.models (.ofTexts (none, name)) = some m) :
    r.getModel (.str name) .null = .ok m := by
  rw [Registry.getModel_eq]
  show ((if Value.null = .null then none else _).or
    (Assoc.get? r.models (.ofTexts (none, name)))).elim _ _ = _
  rw [h, if_pos rfl]
  rfl

-- ========================================================= classes are kept

/-- Different underscored names give every class a key of its own. -/
theorem distinct_keptPairs (h : (classes.map fun c => underscored c.name).Nodup) :
    Assoc.Distinct (keptPairs classes) := by
  have hinOrder : ((inOrder classes).map fun c => underscored c.name).Nodup :=
    ((List.mergeSort_perm classes _).map _).nodup_iff.2 h
  unfold Assoc.Distinct keptPairs
  rw [List.map_map, List.pairwise_map]
  refine (List.pairwise_map.1 hinOrder).imp fun {c c'} hne => ?_
  exact (Mapper.key_beq c c').trans (beq_eq_false_iff_ne.2 hne)

theorem keepsClasses_of_nodup (hmapped : Mapped classes)
    (hmodels : r.models = Assoc.ofPairs (keptPairs classes))
    (h : (classes.map fun c => underscored c.name).Nodup) : KeepsClasses classes r := by
  have hdistinct := distinct_keptPairs h
  have hpairs : r.models = keptPairs classes :=
    hmodels.trans (Assoc.putAll_nil_left hdistinct)
  have hmem : ∀ c ∈ classes, (c.key, c.toModel) ∈ r.models := by
    intro c hc
    rw [hpairs]
    exact List.mem_map_of_mem (f := fun c : Mapper => (c.key, c.toModel))
      (mem_inOrder.2 hc)
  refine ⟨fun c hc => ⟨_, hmem c hc, rfl, hmapped.globalId c hc⟩, ?_, fun c hc rel hrel => ?_⟩
  · rw [hpairs, keptPairs, List.length_map]
    exact (List.mergeSort_perm classes _).length_eq
  · obtain ⟨t, ht, htarget⟩ := hmapped.targets c hc rel hrel
    obtain ⟨hpoints, hplugin⟩ := target_toAttribute rel (htarget ▸ hmapped.named t ht)
    refine ⟨_, attribute?_toModel (hmapped.attributes c hc) hrel, t, ht, htarget, ?_⟩
    rw [hpoints, hplugin, ← htarget]
    refine getModel_of_get? ?_
    rw [hpairs] at hmem ⊢
    exact Assoc.get?_of_mem hdistinct (hmem t ht)

/-- A model that is kept is kept under the underscored name of its class. -/
theorem key_of_mem_ofPairs {k : ModelKey}
    (h : (k, c.toModel) ∈ Assoc.ofPairs (keptPairs classes)) : (c.key == k) = true := by
  obtain ⟨_, hpair, hkey, hmodel⟩ := Assoc.exists_of_mem_ofPairs _ h
  obtain ⟨c', _, rfl⟩ := List.mem_map.1 hpair
  have hname : Value.str (underscored c'.name) = .str (underscored c.name) :=
    congrArg Model.name hmodel
  rw [Value.str.injEq] at hname
  have hsame : c'.key = c.key := congrArg (fun s => ModelKey.ofTexts (none, s)) hname
  rwa [← hsame]

/-- Where every class is registered, no two have one underscored name. -/
theorem nodup_of_registered (hmapped : Mapped classes)
    (hmodels : r.models = Assoc.ofPairs (keptPairs classes))
    (h : ∀ c ∈ classes, ∃ entry ∈ r.models, entry.2 = c.toModel) :
    (classes.map fun c => underscored c.name).Nodup := by
  have hdistinct := Assoc.distinct_ofPairs (keptPairs classes)
  have hfound : ∀ c ∈ classes,
      Assoc.get? (Assoc.ofPairs (keptPairs classes)) c.key = some c.toModel := by
    intro c hc
    obtain ⟨⟨k, _⟩, hentry, rfl⟩ := h c hc
    rw [hmodels] at hentry
    rw [Assoc.get?_congr (key_of_mem_ofPairs hentry), Assoc.get?_of_mem hdistinct hentry]
  refine List.pairwise_map.2
    ((List.pairwise_map.1 hmapped.nodup).imp_of_mem fun {c c'} hc hc' hne hsame => hne ?_)
  have hkey : c.key = c'.key := congrArg (fun s => ModelKey.ofTexts (none, s)) hsame
  have hmodel := (hfound c hc).symm.trans ((congrArg _ hkey).trans (hfound c' hc'))
  have hid := congrArg Model.globalId (Option.some.inj hmodel)
  have hid : c.globalId = c'.globalId := hid
  rw [hmapped.globalId c hc, hmapped.globalId c' hc', Value.str.injEq] at hid
  exact hid

/-- Registering classes never fails, and all of them are kept, with
relationships that lead to the classes they were declared with, exactly if
no two class names are underscored to one name. -/
theorem keepsClasses_iff (h : Mapped classes) :
    ∃ r, extend none classes = .ok ⟨none, r⟩
      ∧ (KeepsClasses classes r ↔ (classes.map fun c => underscored c.name).Nodup) := by
  obtain ⟨r, hextend, hmodels⟩ := extend_none h
  refine ⟨r, hextend, fun hkeeps => ?_, keepsClasses_of_nodup h hmodels⟩
  refine nodup_of_registered h hmodels fun c hc => ?_
  obtain ⟨entry, hentry, hmodel, _⟩ := hkeeps.registered c hc
  exact ⟨entry, hentry, hmodel⟩

/-- An attribute that stands for the key of a table. -/
def idProperty (table : String) : Property :=
  { key := "id"
    column :=
      { table := table, key := "id", type := .plain { classes := [.integer] }
        isPrimaryKey := true, nullable := false } }

/-- A column that points into another table. -/
def foreignKey (table key : String) : Column :=
  { table := table, key := key, type := .plain { classes := [.integer] } }

/-- Authors and their posts. -/
def blogClasses : List Mapper :=
  [{ name := "Author", globalId := .str "Author"
     columns := [idProperty "authors"]
     relationships :=
      [{ key := "posts", target := "BlogPost", direction := .oneToMany
         localColumns := [(idProperty "authors").column], usesList := true }] },
   { name := "BlogPost", globalId := .str "BlogPost"
     columns := [idProperty "posts", ⟨"author_id", foreignKey "posts" "author_id"⟩]
     relationships :=
      [{ key := "author", target := "Author", direction := .manyToOne
         localColumns := [foreignKey "posts" "author_id"], usesList := false }] }]

theorem mapped_blogClasses : Mapped blogClasses := by
  constructor <;> simp [blogClasses]

theorem keepsClasses_blogClasses :
    ∃ r, extend none blogClasses = .ok ⟨none, r⟩ ∧ KeepsClasses blogClasses r := by
  obtain ⟨r, hextend, hkeeps⟩ := keepsClasses_iff mapped_blogClasses
  exact ⟨r, hextend, hkeeps.2 (by decide +kernel)⟩

/-- Two classes with names that are underscored alike, and links to the one
that is registered first. -/
def pageClasses : List Mapper :=
  [{ name := "HTMLPage", globalId := .str "HTMLPage", columns := [idProperty "html_pages"] },
   { name := "HtmlPage", globalId := .str "HtmlPage", columns := [idProperty "pages"] },
   { name := "Link", globalId := .str "Link"
     columns := [idProperty "links", ⟨"page_id", foreignKey "links" "page_id"⟩]
     relationships :=
      [{ key := "page", target := "HTMLPage", direction := .manyToOne
         localColumns := [foreignKey "links" "page_id"], usesList := false }] }]

theorem mapped_pageClasses : Mapped pageClasses := by
  constructor <;> simp [pageClasses]

theorem inOrder_pageClasses : inOrder pageClasses = pageClasses :=
  List.mergeSort_of_pairwise (by decide +kernel)

/-- Of two classes that are underscored alike one is lost, and links to it
lead to the other one. -/
theorem pageClasses_lost :
    Mapped pageClasses
      ∧ ∃ r, extend none pageClasses = .ok ⟨none, r⟩
        ∧ r.models.map (fun e => e.2.globalId) = [.str "HtmlPage", .str "Link"]
        ∧ r.getModel (.str "html_page") .null = .ok
            { name := .str "html_page", globalId := .str "HtmlPage" }
        ∧ ¬KeepsClasses pageClasses r := by
  obtain ⟨r, hextend, hmodels⟩ := extend_none mapped_pageClasses
  rw [keptPairs, inOrder_pageClasses] at hmodels
  have hkept : r.models
      = [(.ofTexts (none, "html_page"),
          { name := .str "html_page", globalId := .str "HtmlPage" }),
        (.ofTexts (none, "link"),
          { name := .str "link", globalId := .str "Link",
            attributes := [("page", { model := .str "html_page" })] })] := by
    rw [hmodels]
    decide +kernel
  refine ⟨mapped_pageClasses, r, hextend, ?_, ?_, ?_⟩
  · rw [hkept]
    rfl
  · refine getModel_of_get? ?_
    rw [hkept]
    rfl
  · intro hkeeps
    have hcount := hkeeps.count
    rw [hkept] at hcount
    exact absurd hcount (by decide)

end Relational

end ModelSchema
