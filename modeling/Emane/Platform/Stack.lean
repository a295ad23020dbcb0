import Mathlib
import Emane.Lib.Run
import Emane.Platform.Nem

set_option autoImplicit false

/-! # The stack of a structured NEM

What is the stack of layers that `parseNem` returns? Its layers come from the layers that the definition
lists (`listedSources`) and from those inside the NEM's element that no layer has the type of
(`sources`), in this order, and each parameter of a layer is the one inside the NEM's element, else the
one in the definition's list, else the one of the layer's own definition (`Source.value`).

The tests for a structured NEM leave the order of transport, MAC and PHY. A shim may stand at any place,
also above the transport and below the PHY (`shim_below_phy`), as in the content model of the documents.
-/

namespace Emane.Platform

open Emane.Lib
open Emane.Antenna (Element File)
open Std (ExtTreeMap LawfulEqOrd)

/-! ## What an element gives -/

/-- The child is a parameter with this name. -/
def isItem (name : String) (child : Element) : Bool :=
  (child.name == "param" || child.name == "paramlist") && child.attributeValue "name" == some name

/-- The values of a parameter. -/
def itemValues (child : Element) : List String :=
  if child.name = "param" then [valueOf child] else (child.childrenNamed "item").map valueOf

/-- The values that the children give to a parameter. -/
def givenBy (children : List Element) (name : String) : Option (List String) :=
  (children.find? (isItem name)).map itemValues

/-- The values that an element gives to a parameter. -/
def given (node : Element) (name : String) : Option (List String) := givenBy node.children name

/-- What a child gives after the others. -/
theorem givenBy_concat (children : List Element) (child : Element) (name : String) :
    givenBy (children ++ [child]) name = (givenBy children name).or (givenBy [child] name) := by
  unfold givenBy
  rw [List.find?_append]
  cases children.find? (isItem name) with
  | none => simp
  | some c => simp

theorem parsed_eq_ok {α : Type} {text : String} {o : Option α} {a : α} :
    parsed text o = .ok a ↔ o = some a := by
  cases o with
  | none => simp [parsed]
  | some b => simp [parsed]

/-- A parameter that is not there yet is entered. -/
theorem addItem_eq_ok {params params' : ParamMap} {name : String} {values : List String}
    (h : addItem params name values = .ok params') (key : String) :
    params'[key]? = params[key]?.or (if name = key then some values else none) := by
  obtain ⟨hnew, hparams⟩ := guard_eq_ok_iff.mp h
  cases hparams
  rw [ExtTreeMap.getElem?_insert]
  simp only [LawfulEqOrd.compare_eq_iff_eq]
  split
  · next hkey =>
      subst hkey
      rw [ExtTreeMap.getElem?_eq_none hnew, Option.none_or]
  · rw [Option.or_none]

/-- **The loop over the parameters enters what the children give.** -/
theorem addParam_eq_ok {params params' : ParamMap} {child : Element}
    (h : addParam params child = .ok params') (key : String) :
    params'[key]? = params[key]?.or (givenBy [child] key) := by
  unfold addParam at h
  have hgiven : givenBy [child] key = if isItem key child then some (itemValues child) else none := by
    unfold givenBy
    rw [List.find?_singleton]
    split <;> rfl
  rw [hgiven]
  by_cases hparam : child.name = "param"
  · rw [if_pos hparam] at h
    obtain ⟨name, hname, hadd⟩ := exists_of_bind_eq_ok h
    rw [addItem_eq_ok hadd, isItem, itemValues, parsed_eq_ok.mp hname]
    simp [hparam]
  rw [if_neg hparam] at h
  by_cases hlist : child.name = "paramlist"
  · rw [if_pos hlist] at h
    obtain ⟨name, hname, hadd⟩ := exists_of_bind_eq_ok h
    rw [addItem_eq_ok hadd, isItem, itemValues, parsed_eq_ok.mp hname]
    simp [hlist]
  rw [if_neg hlist] at h
  cases h
  simp [isItem, hparam, hlist]

theorem parseParams_eq_ok {node : Element} {params : ParamMap} (h : parseParams node = .ok params)
    (key : String) : params[key]? = given node key := by
  refine foldlM_ok_induction
    (motive := fun children params => params[key]? = givenBy children key) rfl ?_ _ _ h
  intro children child x y hx hstep
  rw [addParam_eq_ok hstep, hx, givenBy_concat]

/-- New parameters come before old ones. -/
theorem getElem?_overlayParams (base newParams : ParamMap) (key : String) :
    (overlayParams base newParams)[key]? = newParams[key]?.or base[key]? := by
  unfold overlayParams
  cases hnew : newParams[key]? with
  | none =>
      rw [Option.none_or]
      apply getElem?_insertMany_of_notMem
      rw [ExtTreeMap.map_fst_toList_eq_keys, ExtTreeMap.mem_keys]
      intro hmem
      rw [ExtTreeMap.mem_iff_isSome_getElem?, hnew] at hmem
      cases hmem
  | some values =>
      rw [Option.some_or]
      apply getElem?_insertMany_of_mem
      · rw [ExtTreeMap.map_fst_toList_eq_keys]
        exact newParams.nodup_keys
      · exact ExtTreeMap.mem_toList_iff_getElem?_eq_some.mpr hnew

/-! ## The layers of the stack -/

/-- Where a layer of the stack comes from: an element of the document `file`, which is the definition of
the NEM if `listed`, and the platform's document otherwise. -/
structure Source where
  file : String
  element : Element
  listed : Bool

namespace Source

/-- The type of the layer. -/
def type (s : Source) : String := s.element.name

/-- The parameters of the layer's own definition. -/
def own (files : String → File) (s : Source) (name : String) : Option (List String) :=
  (s.element.attributeValue "definition").bind fun definition =>
    match files (definitionPath s.file definition) with
    | .document root => given root name
    | _ => none

/-- The elements inside the NEM's element that are about the layer. A shim there is always a layer of
its own. -/
def inside (s : Source) (elements : List Element) : List Element :=
  if s.type = "shim" then if s.listed then [] else [s.element]
  else elements.filter fun element => element.name == s.type

/-- What the last element that gives the parameter gives. -/
def lastGiven (elements : List Element) (name : String) : Option (List String) :=
  elements.reverse.findSome? fun element => given element name

/-- The parameter of the layer: the one inside the NEM's element, else the one where the definition lists
the layer, else the one of the layer's own definition. -/
def value (files : String → File) (elements : List Element) (s : Source) (name : String) :
    Option (List String) :=
  (lastGiven (s.inside elements) name).or
    ((if s.listed then given s.element name else none).or (s.own files name))

end Source

/-- The layer is what its source says. -/
structure LayerOf (files : String → File) (elements : List Element) (s : Source) (layer : LayerConfig) :
    Prop where
  type : layer.layerType = s.type
  params : ∀ name, layer.params[name]? = s.value files elements name

/-- The layers that the definition of the NEM lists. -/
def listedSources (files : String → File) (filePath : String) (node : Element) : List Source :=
  (node.attributeValue "definition").elim [] fun definition =>
    let path := definitionPath filePath definition
    match files path with
    | .document root => (layerElements root).map fun element => ⟨path, element, true⟩
    | _ => []

/-- An element inside the NEM's element is a new layer if it is a shim or there is none of its type. -/
def addSource (filePath : String) (sources : List Source) (element : Element) : List Source :=
  if element.name = "shim" ∨ element.name ∉ sources.map Source.type then
    sources ++ [⟨filePath, element, false⟩]
  else sources

/-- The layers of the stack, in their order. -/
def sources (files : String → File) (filePath : String) (node : Element) : List Source :=
  (layerElements node).foldl (addSource filePath) (listedSources files filePath node)

/-! ## Reading layers -/

section

variable {files : String → File} {filePath : String}

theorem readDefinition_eq_ok {path : String} {root : Element}
    (h : readDefinition files path = .ok root) : files path = .document root := by
  unfold readDefinition at h
  cases hfile : files path with
  | unreadable error => rw [hfile] at h; cases h
  | malformed error => rw [hfile] at h; cases h
  | document root' => rw [hfile] at h; cases h; rfl

/-- **A layer has the parameters of its element and those of its definition.** -/
theorem parseLayer_eq_ok {node : Element} {layer : LayerConfig} {listed : Bool}
    (h : parseLayer files filePath node node.name = .ok layer) :
    layer.layerType = node.name ∧
      ∀ name, layer.params[name]? = (given node name).or ((Source.mk filePath node listed).own files name) := by
  obtain ⟨config, hconfig, h⟩ := exists_of_bind_eq_ok h
  obtain ⟨inlineParams, hinline, h⟩ := exists_of_bind_eq_ok h
  cases h
  dsimp only
  simp only [getElem?_overlayParams, parseParams_eq_ok hinline, Source.own]
  cases hdefinition : node.attributeValue "definition" with
  | none =>
      rw [hdefinition] at hconfig
      cases hconfig
      exact ⟨rfl, fun name => by simp⟩
  | some definition =>
      rw [hdefinition] at hconfig
      obtain ⟨root, hroot, hrest⟩ := exists_of_bind_eq_ok hconfig
      obtain ⟨-, hrest⟩ := guard_eq_ok_iff.mp hrest
      obtain ⟨params, hparams, hrest⟩ := exists_of_bind_eq_ok hrest
      cases hrest
      refine ⟨rfl, fun name => ?_⟩
      rw [Option.bind_some, readDefinition_eq_ok hroot]
      dsimp only
      rw [parseParams_eq_ok hparams]

theorem forall₂_of_mapM {ε α β : Type} {f : α → Except ε β} {as : List α} {bs : List β}
    (h : as.mapM f = .ok bs) : List.Forall₂ (fun a b => f a = .ok b) as bs := by
  induction as generalizing bs with
  | nil =>
      cases h
      exact .nil
  | cons a as ih =>
      rw [List.mapM_cons] at h
      obtain ⟨b, hb, h⟩ := exists_of_bind_eq_ok h
      obtain ⟨bs', hbs', h⟩ := exists_of_bind_eq_ok h
      cases h
      exact .cons hb (ih hbs')

/-- The layers that the definition lists. -/
theorem nemDefinition_eq_ok {config config' : NemConfig} {definition : String}
    (h : nemDefinition files filePath config definition = .ok config') :
    ∃ root, files (definitionPath filePath definition) = .document root ∧
      List.Forall₂ (fun child layer =>
        parseLayer files (definitionPath filePath definition) child child.name = .ok layer)
        (layerElements root) config'.layers := by
  obtain ⟨root, hroot, hrest⟩ := exists_of_bind_eq_ok h
  obtain ⟨-, hrest⟩ := guard_eq_ok_iff.mp hrest
  obtain ⟨params, -, hrest⟩ := exists_of_bind_eq_ok hrest
  obtain ⟨layers, hlayers, hrest⟩ := exists_of_bind_eq_ok hrest
  cases hrest
  exact ⟨root, readDefinition_eq_ok hroot, forall₂_of_mapM hlayers⟩

/-- **What the body of the loop does**: it puts a new layer at the end, or it changes the parameters of
the first layer of the type. -/
theorem addLayer_eq_ok {layers layers' : List LayerConfig} {child : Element}
    (h : addLayer files filePath layers child = .ok layers') :
    ((child.name = "shim" ∨ child.name ∉ layers.map LayerConfig.layerType) ∧
      ∃ layer, parseLayer files filePath child child.name = .ok layer ∧ layers' = layers ++ [layer]) ∨
    (child.name ≠ "shim" ∧ ∃ idx params, (∃ layer, layers[idx]? = some layer ∧
        layer.layerType = child.name) ∧ parseParams child = .ok params ∧
      layers' = layers.modify idx fun layer =>
        { layer with params := overlayParams layer.params params }) := by
  have hpush : pushLayer files filePath layers child = .ok layers' →
      ∃ layer, parseLayer files filePath child child.name = .ok layer ∧ layers' = layers ++ [layer] := by
    intro hpush
    obtain ⟨layer, hlayer, hpush⟩ := exists_of_bind_eq_ok hpush
    cases hpush
    exact ⟨layer, hlayer, rfl⟩
  unfold addLayer at h
  by_cases hshim : child.name = "shim"
  · rw [if_pos hshim] at h
    exact Or.inl ⟨Or.inl hshim, hpush h⟩
  rw [if_neg hshim] at h
  cases hfind : layers.findIdx? fun layer => layer.layerType == child.name with
  | none =>
      rw [hfind] at h
      refine Or.inl ⟨Or.inr fun hmem => ?_, hpush h⟩
      obtain ⟨layer, hlayer, htype⟩ := List.mem_map.mp hmem
      have := List.findIdx?_eq_none_iff.mp hfind layer hlayer
      rw [htype, beq_self_eq_true] at this
      cases this
  | some idx =>
      rw [hfind] at h
      dsimp only at h
      obtain ⟨-, h⟩ := guard_eq_ok_iff.mp h
      obtain ⟨params, hparams, h⟩ := exists_of_bind_eq_ok h
      cases h
      obtain ⟨hidx, htype, -⟩ := List.findIdx?_eq_some_iff_getElem.mp hfind
      exact Or.inr ⟨hshim, idx, params, ⟨layers[idx], List.getElem?_eq_getElem hidx, eq_of_beq htype⟩,
        hparams, rfl⟩

end

/-! ## The loop over the elements -/

/-- Two layers of the stack have different types, if they are not shims. -/
def Distinct (ss : List Source) : Prop := ss.Pairwise fun s t => s.type = t.type → s.type = "shim"

section

variable {files : String → File} {filePath : String} {elements : List Element} {element : Element}
  {s : Source}

theorem Source.lastGiven_concat (name : String) : lastGiven (elements ++ [element]) name =
    (given element name).or (lastGiven elements name) := by
  rw [lastGiven, List.reverse_append, List.reverse_singleton, List.singleton_append, List.findSome?_cons]
  cases given element name with
  | none => rw [Option.none_or]; rfl
  | some values => rw [Option.some_or]

/-- An element of another type says nothing about the layer. -/
theorem Source.inside_concat_of_ne (h : s.type = element.name → s.type = "shim") :
    s.inside (elements ++ [element]) = s.inside elements := by
  unfold inside
  by_cases hshim : s.type = "shim"
  · rw [if_pos hshim, if_pos hshim]
  · have hne : (element.name == s.type) = false := beq_eq_false_iff_ne.mpr fun heq => hshim (h heq.symm)
    rw [if_neg hshim, if_neg hshim, List.filter_append, List.filter_singleton, hne]
    simp

/-- An element of the layer's type comes last. -/
theorem Source.inside_concat_of_eq (h : s.type = element.name) (hshim : element.name ≠ "shim") :
    s.inside (elements ++ [element]) = s.inside elements ++ [element] := by
  unfold inside
  rw [h, if_neg hshim, if_neg hshim, List.filter_append, List.filter_singleton, beq_self_eq_true]
  rfl

theorem LayerOf.concat_of_ne {layer : LayerConfig} (h : LayerOf files elements s layer)
    (hne : s.type = element.name → s.type = "shim") : LayerOf files (elements ++ [element]) s layer := by
  refine ⟨h.type, fun name => ?_⟩
  rw [h.params, Source.value, Source.value, Source.inside_concat_of_ne hne]

theorem LayerOf.concat_of_eq {layer : LayerConfig} (h : LayerOf files elements s layer)
    (heq : s.type = element.name) (hshim : element.name ≠ "shim") {params : ParamMap}
    (hparams : parseParams element = .ok params) :
    LayerOf files (elements ++ [element]) s
      { layer with params := overlayParams layer.params params } := by
  refine ⟨h.type, fun name => ?_⟩
  dsimp only
  rw [getElem?_overlayParams, parseParams_eq_ok hparams, h.params, Source.value, Source.value,
    Source.inside_concat_of_eq heq hshim, Source.lastGiven_concat, Option.or_assoc]

theorem Source.inside_nil_of_listed (h : s.listed = true) : s.inside [] = [] := by
  simp [inside, h]

/-- The definition's layers before the first element is read. -/
theorem listed_layerOf {path : String} {children : List Element} {layers : List LayerConfig}
    (h : List.Forall₂ (fun child layer => parseLayer files path child child.name = .ok layer) children
      layers) :
    List.Forall₂ (LayerOf files []) (children.map fun element => ⟨path, element, true⟩) layers := by
  rw [List.forall₂_map_left_iff]
  refine h.imp fun child layer hlayer => ?_
  obtain ⟨htype, hparams⟩ := @parseLayer_eq_ok files path child layer true hlayer
  refine ⟨htype, fun name => ?_⟩
  rw [hparams, Source.value, Source.inside_nil_of_listed rfl]
  rfl

/-- A new layer has the parameters of its element. -/
theorem pushed_layerOf {layer : LayerConfig}
    (h : parseLayer files filePath element element.name = .ok layer)
    (hfirst : element.name ≠ "shim" → ∀ e ∈ elements, e.name ≠ element.name) :
    LayerOf files (elements ++ [element]) ⟨filePath, element, false⟩ layer := by
  obtain ⟨htype, hparams⟩ := @parseLayer_eq_ok files filePath element layer false h
  refine ⟨htype, fun name => ?_⟩
  have hinside : (Source.mk filePath element false).inside (elements ++ [element]) = [element] := by
    unfold Source.inside Source.type
    by_cases hshim : element.name = "shim"
    · rw [if_pos hshim]
      rfl
    · rw [if_neg hshim, List.filter_append, List.filter_singleton, beq_self_eq_true]
      rw [List.filter_eq_nil_iff.mpr fun e he => by simpa using hfirst hshim e he]
      rfl
  rw [hparams, Source.value, hinside]
  simp [Source.lastGiven]

/-- Changing the layer at a position that has the element's type. -/
theorem modified_layerOf {ss : List Source} {layers : List LayerConfig} {idx : ℕ} {params : ParamMap}
    (h : List.Forall₂ (LayerOf files elements) ss layers) (hdistinct : Distinct ss)
    (hhit : ∃ layer, layers[idx]? = some layer ∧ layer.layerType = element.name)
    (hshim : element.name ≠ "shim") (hparams : parseParams element = .ok params) :
    List.Forall₂ (LayerOf files (elements ++ [element])) ss
      (layers.modify idx fun layer => { layer with params := overlayParams layer.params params }) := by
  induction h generalizing idx with
  | nil => simp at hhit
  | @cons s layer ss layers hlayer hrest ih =>
      obtain ⟨hfirst, hdistinct⟩ := List.pairwise_cons.mp hdistinct
      cases idx with
      | zero =>
          obtain ⟨layer', hget, htype⟩ := hhit
          rw [List.getElem?_cons_zero, Option.some.injEq] at hget
          subst hget
          have hs : s.type = element.name := hlayer.type.symm.trans htype
          refine .cons (hlayer.concat_of_eq hs hshim hparams) ?_
          -- the other layers have other types
          refine (List.forall₂_and_left _ _).mpr ⟨fun t ht => hfirst t ht, hrest⟩ |>.imp ?_
          rintro t layer' ⟨ht, hlayer'⟩
          exact hlayer'.concat_of_ne fun heq => absurd (hs ▸ ht (hs.trans heq.symm)) hshim
      | succ idx =>
          rw [List.modify_succ_cons]
          refine .cons (hlayer.concat_of_ne fun heq => ?_) (ih hdistinct (by simpa using hhit))
          obtain ⟨layer', hget, htype⟩ := hhit
          rw [List.getElem?_cons_succ] at hget
          obtain ⟨hlt, rfl⟩ := List.getElem?_eq_some_iff.mp hget
          have hlt' : idx < ss.length := hrest.length_eq ▸ hlt
          have hof : LayerOf files elements ss[idx] layers[idx] := hrest.get hlt' hlt
          exact hfirst _ (List.getElem_mem hlt') (heq.trans (htype.symm.trans hof.type))

theorem types_eq {ss : List Source} {layers : List LayerConfig}
    (h : List.Forall₂ (LayerOf files elements) ss layers) :
    layers.map LayerConfig.layerType = ss.map Source.type := by
  induction h with
  | nil => rfl
  | cons hlayer _ ih => rw [List.map_cons, List.map_cons, hlayer.type, ih]

/-- Every element read so far has a layer of its type. -/
theorem type_mem_foldl (listed : List Source) (h : element ∈ elements) :
    element.name ∈ (elements.foldl (addSource filePath) listed).map Source.type := by
  induction elements using List.reverseRecOn with
  | nil => simp at h
  | append_singleton elements e ih =>
      rw [List.foldl_append, List.foldl_cons, List.foldl_nil, addSource]
      rcases List.mem_append.mp h with h | h
      · split
        · rw [List.map_append]
          exact List.mem_append_left _ (ih h)
        · exact ih h
      · rw [List.mem_singleton.mp h]
        split
        · rw [List.map_append]
          exact List.mem_append_right _ (List.mem_singleton_self _)
        · next hold =>
            rw [not_or, not_not] at hold
            exact hold.2

/-- The layers have the types of their sources, whatever the types are. -/
theorem addLayers_types {listed : List Source} {layers : List LayerConfig}
    (hlisted : layers.map LayerConfig.layerType = listed.map Source.type) (elements : List Element)
    (layers' : List LayerConfig) (h : elements.foldlM (addLayer files filePath) layers = .ok layers') :
    layers'.map LayerConfig.layerType =
      (elements.foldl (addSource filePath) listed).map Source.type := by
  refine foldlM_ok_induction (motive := fun elements layers => layers.map LayerConfig.layerType =
    (elements.foldl (addSource filePath) listed).map Source.type) hlisted ?_ elements layers' h
  intro elements element x y hx hstep
  rw [List.foldl_append, List.foldl_cons, List.foldl_nil, addSource, ← hx]
  rcases addLayer_eq_ok hstep with ⟨hnew, layer, hlayer, rfl⟩ | ⟨hshim, idx, params, hhit, -, rfl⟩
  · rw [if_pos hnew, List.map_append, List.map_append, hx]
    rw [List.map_singleton, List.map_singleton, (@parseLayer_eq_ok files _ _ _ false hlayer).1]
    rfl
  · obtain ⟨layer, hget, htype⟩ := hhit
    have hold : element.name ∈ x.map LayerConfig.layerType :=
      htype ▸ List.mem_map_of_mem (List.mem_of_getElem? hget)
    rw [if_neg (not_or.mpr ⟨hshim, not_not.mpr hold⟩), ← hx]
    refine List.ext_getElem? fun i => ?_
    rw [List.getElem?_map, List.getElem?_map, List.getElem?_modify]
    cases x[i]? with
    | none => rfl
    | some layer => by_cases hi : idx = i <;> simp [hi]

/-- **The loop keeps the layers what their sources say**, as long as the types stay distinct. -/
theorem addLayers_eq_ok {listed : List Source} {layers : List LayerConfig}
    (hlisted : List.Forall₂ (LayerOf files []) listed layers) (elements : List Element)
    (layers' : List LayerConfig) (h : elements.foldlM (addLayer files filePath) layers = .ok layers') :
    Distinct (elements.foldl (addSource filePath) listed) →
      List.Forall₂ (LayerOf files elements) (elements.foldl (addSource filePath) listed) layers' := by
  refine foldlM_ok_induction (motive := fun elements layers =>
    Distinct (elements.foldl (addSource filePath) listed) →
      List.Forall₂ (LayerOf files elements) (elements.foldl (addSource filePath) listed) layers)
    (fun _ => hlisted) ?_ elements layers' h
  intro elements element x y hx hstep
  rw [List.foldl_append, List.foldl_cons, List.foldl_nil]
  have hcovered := fun e (he : e ∈ elements) => @type_mem_foldl filePath elements e listed he
  generalize elements.foldl (addSource filePath) listed = ss at hx hcovered
  intro hdistinct
  have hss : Distinct ss := by
    unfold addSource at hdistinct
    split at hdistinct
    · exact (List.pairwise_append.mp hdistinct).1
    · exact hdistinct
  have hof := hx hss
  have htypes := types_eq hof
  rcases addLayer_eq_ok hstep with ⟨hnew, layer, hlayer, rfl⟩ | ⟨hshim, idx, params, hhit, hparams, rfl⟩
  · rw [htypes] at hnew
    rw [addSource, if_pos hnew] at hdistinct ⊢
    have hapart := (List.pairwise_append.mp hdistinct).2.2
    have hold : List.Forall₂ (LayerOf files (elements ++ [element])) ss x := by
      refine (List.forall₂_and_left ss x).mpr ⟨fun s hs => hs, hof⟩ |>.imp ?_
      rintro s layer ⟨hs, hlayer⟩
      exact hlayer.concat_of_ne (hapart s hs _ (List.mem_singleton_self _))
    refine List.rel_append hold (.cons (pushed_layerOf hlayer fun hshim e he heq => ?_) .nil)
    exact (hnew.resolve_left hshim) (heq ▸ hcovered e he)
  · have hold : element.name ∈ ss.map Source.type := by
      obtain ⟨layer, hget, htype⟩ := hhit
      rw [← htypes, ← htype]
      exact List.mem_map_of_mem (List.mem_of_getElem? hget)
    rw [addSource, if_neg (not_or.mpr ⟨hshim, not_not.mpr hold⟩)]
    exact modified_layerOf hof hss hhit hshim hparams

end

/-! ## The tests -/

/-- The places of a type, counted from `k`. -/
def positionsFrom (k : ℕ) (types : List String) (layerType : String) : List ℕ :=
  (types.zipIdx k).filterMap fun place => if place.1 = layerType then some place.2 else none

theorem positionsFrom_eq_nil {types : List String} {layerType : String} {k : ℕ}
    (h : positionsFrom k types layerType = []) : layerType ∉ types := by
  induction types generalizing k with
  | nil => exact List.not_mem_nil
  | cons t types ih =>
      rw [positionsFrom, List.zipIdx_cons, List.filterMap_cons] at h
      by_cases ht : t = layerType
      · simp [ht] at h
      · simp only [if_neg ht] at h
        exact List.not_mem_cons_of_ne_of_not_mem (Ne.symm ht) (ih h)

/-- A type with one place stands there, and nowhere else. -/
theorem positionsFrom_eq_singleton {types : List String} {layerType : String} {k i : ℕ}
    (h : positionsFrom k types layerType = [i]) :
    ∃ above below, types = above ++ layerType :: below ∧ k + above.length = i ∧ layerType ∉ above ∧
      layerType ∉ below := by
  induction types generalizing k with
  | nil => simp [positionsFrom] at h
  | cons t types ih =>
      rw [positionsFrom, List.zipIdx_cons, List.filterMap_cons] at h
      by_cases ht : t = layerType
      · simp only [if_pos ht, List.cons.injEq] at h
        exact ⟨[], types, by rw [ht]; rfl, h.1, List.not_mem_nil, positionsFrom_eq_nil h.2⟩
      · simp only [if_neg ht] at h
        obtain ⟨above, below, rfl, hi, habove, hbelow⟩ := ih h
        refine ⟨t :: above, below, rfl, ?_, List.not_mem_cons_of_ne_of_not_mem (Ne.symm ht) habove,
          hbelow⟩
        rw [List.length_cons]
        omega

/-- The layers are shims. -/
def Shims (types : List String) : Prop := ∀ t ∈ types, t = "shim"

/-- The types of a stack: one transport, or none if it is external, one MAC and one PHY below each other,
and shims at any place. -/
def Stacked (externalTransport : Bool) (types : List String) : Prop :=
  ∃ s₀ s₁ s₂ s₃, Shims s₀ ∧ Shims s₁ ∧ Shims s₂ ∧ Shims s₃ ∧
    types = s₀ ++ (if externalTransport then [] else ["transport"]) ++ s₁ ++ ["mac"] ++ s₂ ++ ["phy"] ++ s₃

theorem shims_of {types s : List String} (hknown : ∀ t ∈ types, t ∈ layerTypes) (hsub : s ⊆ types)
    (htransport : "transport" ∉ s) (hmac : "mac" ∉ s) (hphy : "phy" ∉ s) : Shims s := by
  intro t ht
  have h := hknown t (hsub ht)
  simp only [layerTypes, List.mem_cons, List.not_mem_nil, or_false] at h
  rcases h with rfl | rfl | rfl | rfl
  · exact absurd ht htransport
  · rfl
  · exact absurd ht hmac
  · exact absurd ht hphy

/-- A place above another one. -/
theorem split_of_lt {x y : String} {above below above' below' : List String}
    (h : above ++ x :: below = above' ++ y :: below') (hlt : above.length < above'.length) :
    ∃ between, below = between ++ y :: below' ∧ above' = above ++ x :: between := by
  rcases List.append_eq_append_iff.mp h with ⟨mid, habove', hbelow⟩ | ⟨mid, habove, -⟩
  · cases mid with
    | nil =>
        rw [habove', List.append_nil] at hlt
        exact absurd hlt (Nat.lt_irrefl _)
    | cons z mid =>
        rw [List.cons_append, List.cons.injEq] at hbelow
        obtain ⟨rfl, rfl⟩ := hbelow
        exact ⟨mid, rfl, habove'⟩
  · rw [habove, List.length_append] at hlt
    omega

section

variable {types : List String} (hknown : ∀ t ∈ types, t ∈ layerTypes) {mac phy : ℕ}
  (hmac : positions types "mac" = [mac]) (hphy : positions types "phy" = [phy]) (horder : mac < phy)

include hknown hmac hphy horder

/-- The tests for a NEM with an external transport. -/
theorem stacked_external (hnone : positions types "transport" = []) : Stacked true types := by
  have hnone : "transport" ∉ types := @positionsFrom_eq_nil types "transport" 0 hnone
  obtain ⟨above, below, hsplit, hplace, habove, hbelow⟩ :=
    @positionsFrom_eq_singleton types "mac" 0 mac hmac
  obtain ⟨above', below', hsplit', hplace', habove', hbelow'⟩ :=
    @positionsFrom_eq_singleton types "phy" 0 phy hphy
  obtain ⟨between, rfl, rfl⟩ := split_of_lt (hsplit.symm.trans hsplit') (by omega)
  subst hsplit
  simp only [List.mem_append, List.mem_cons, not_or] at hnone habove' hbelow
  refine ⟨[], above, between, below', List.forall_mem_nil _, ?_, ?_, ?_, by simp⟩
  · exact shims_of hknown (fun t ht => by simp [ht]) hnone.1 habove habove'.1
  · exact shims_of hknown (fun t ht => by simp [ht]) hnone.2.2.1 hbelow.1 habove'.2.2
  · exact shims_of hknown (fun t ht => by simp [ht]) hnone.2.2.2.2 hbelow.2.2 hbelow'

/-- The tests for a NEM with a transport of its own. -/
theorem stacked_internal {transport : ℕ} (htransport : positions types "transport" = [transport])
    (hfirst : transport < mac) : Stacked false types := by
  obtain ⟨top, rest, hsplit₀, hplace₀, htop, hrest⟩ :=
    @positionsFrom_eq_singleton types "transport" 0 transport htransport
  obtain ⟨above, below, hsplit, hplace, habove, hbelow⟩ :=
    @positionsFrom_eq_singleton types "mac" 0 mac hmac
  obtain ⟨above', below', hsplit', hplace', habove', hbelow'⟩ :=
    @positionsFrom_eq_singleton types "phy" 0 phy hphy
  obtain ⟨between, rfl, rfl⟩ := split_of_lt (hsplit.symm.trans hsplit') (by omega)
  obtain ⟨between₀, rfl, rfl⟩ := split_of_lt (hsplit₀.symm.trans hsplit) (by omega)
  subst hsplit
  simp only [List.mem_append, List.mem_cons, not_or] at habove habove' hbelow hrest
  refine ⟨top, between₀, between, below', ?_, ?_, ?_, ?_, by simp⟩
  · exact shims_of hknown (fun t ht => by simp [ht]) htop habove.1 habove'.1.1
  · exact shims_of hknown (fun t ht => by simp [ht]) hrest.1 habove.2.2 habove'.1.2.2
  · exact shims_of hknown (fun t ht => by simp [ht]) hrest.2.2.1 hbelow.1 habove'.2.2
  · exact shims_of hknown (fun t ht => by simp [ht]) hrest.2.2.2.2 hbelow.2.2 hbelow'

end

/-- **What the tests leave**: a stack with a transport unless it is external, a MAC and a PHY in this
order, and shims at any place. -/
theorem validate_eq_ok {config config' : NemConfig} (h : validate config = .ok config') :
    config' = config ∧ Stacked config.externalTransport (config.layers.map LayerConfig.layerType) := by
  unfold validate at h
  dsimp only at h
  generalize config.layers.map LayerConfig.layerType = types at h ⊢
  obtain ⟨hcount, h⟩ := guard_eq_ok_iff.mp h
  obtain ⟨horder, h⟩ := guard_eq_ok_iff.mp h
  simp only [not_or, not_not] at hcount horder
  obtain ⟨htransports, hmacs, hphys⟩ := hcount
  obtain ⟨mac, hmac⟩ := List.length_eq_one_iff.mp hmacs
  obtain ⟨phy, hphy⟩ := List.length_eq_one_iff.mp hphys
  rw [hmac, hphy] at horder
  cases hfind : types.find? fun layerType => !layerTypes.contains layerType with
  | some layerType =>
      rw [hfind] at h
      cases h
  | none =>
      rw [hfind] at h
      cases h
      have hknown : ∀ t ∈ types, t ∈ layerTypes := by
        intro t ht
        simpa using List.find?_eq_none.mp hfind t ht
      refine ⟨rfl, ?_⟩
      cases hext : config.externalTransport with
      | true =>
          rw [hext] at htransports horder
          have hlt : mac < phy := by simpa using horder
          exact stacked_external hknown hmac hphy hlt (List.length_eq_zero_iff.mp htransports)
      | false =>
          rw [hext] at htransports horder
          obtain ⟨transport, htransport⟩ := List.length_eq_one_iff.mp htransports
          rw [htransport] at horder
          have hlt : transport < mac ∧ mac < phy := by simpa using horder
          exact stacked_internal hknown hmac hphy hlt.2 htransport hlt.1

/-- Only a shim stands twice in a stack. -/
theorem Shims.append {s types : List String} (h : Shims s)
    (htypes : types.Pairwise fun t u => t = u → t = "shim") :
    (s ++ types).Pairwise fun t u => t = u → t = "shim" := by
  refine List.pairwise_append.mpr ⟨?_, htypes, fun t ht _ _ _ => h t ht⟩
  exact List.pairwise_of_forall_mem_list fun t ht _ _ _ => h t ht

theorem Stacked.pairwise {externalTransport : Bool} {types : List String}
    (h : Stacked externalTransport types) : types.Pairwise fun t u => t = u → t = "shim" := by
  obtain ⟨s₀, s₁, s₂, s₃, h₀, h₁, h₂, h₃, rfl⟩ := h
  have hphy : ("phy" :: s₃).Pairwise fun t u => t = u → t = "shim" := by
    refine List.pairwise_cons.mpr ⟨fun t ht heq => heq.trans (h₃ t ht), ?_⟩
    simpa using h₃.append List.Pairwise.nil
  have hmac : ("mac" :: (s₂ ++ "phy" :: s₃)).Pairwise fun t u => t = u → t = "shim" := by
    refine List.pairwise_cons.mpr ⟨fun t ht heq => ?_, h₂.append hphy⟩
    rcases List.mem_append.mp ht with ht | ht
    · exact heq.trans (h₂ t ht)
    rcases List.mem_cons.mp ht with rfl | ht
    · exact absurd heq (by decide)
    · exact heq.trans (h₃ t ht)
  cases externalTransport with
  | true => simpa using h₀.append (h₁.append hmac)
  | false =>
      have htransport : ("transport" :: (s₁ ++ "mac" :: (s₂ ++ "phy" :: s₃))).Pairwise
          fun t u => t = u → t = "shim" := by
        refine List.pairwise_cons.mpr ⟨fun t ht heq => ?_, h₁.append hmac⟩
        simp only [List.mem_append, List.mem_cons] at ht
        rcases ht with ht | rfl | ht | rfl | ht
        · exact heq.trans (h₁ t ht)
        · exact absurd heq (by decide)
        · exact heq.trans (h₂ t ht)
        · exact absurd heq (by decide)
        · exact heq.trans (h₃ t ht)
      simpa using h₀.append htransport

/-! ## The NEM -/

/-- **The stack of a structured NEM.** For every element and every documents that `parseNem` accepts as
structured: the transport, unless it is external, the MAC and the PHY stand in this order, once each, and
all other layers are shims, which may stand at any place; and the layers are, in order, those that the
definition lists and those inside the NEM's element that are shims or the first of their type, where each
parameter is the one given inside the NEM's element, else the one given where the definition lists the
layer, else the one of the layer's own definition, and there is no other. -/
theorem parseNem_structured (files : String → File) (filePath : String) (node : Element)
    (config : NemConfig) (h : parseNem files filePath node = .ok config)
    (hstructured : config.nemType = .structured) :
    Stacked config.externalTransport (config.layers.map LayerConfig.layerType) ∧
      List.Forall₂ (LayerOf files (layerElements node)) (sources files filePath node) config.layers := by
  obtain ⟨idStr, -, h⟩ := exists_of_bind_eq_ok h
  obtain ⟨id, -, h⟩ := exists_of_bind_eq_ok h
  dsimp only at h
  obtain ⟨config₁, hdefinition, h⟩ := exists_of_bind_eq_ok h
  obtain ⟨inlineParams, -, h⟩ := exists_of_bind_eq_ok h
  obtain ⟨layers, hlayers, h⟩ := exists_of_bind_eq_ok h
  have hlisted : List.Forall₂ (LayerOf files []) (listedSources files filePath node) config₁.layers := by
    unfold listedSources
    cases hattribute : node.attributeValue "definition" with
    | none =>
        rw [hattribute] at hdefinition
        cases hdefinition
        exact .nil
    | some definition =>
        rw [hattribute] at hdefinition
        obtain ⟨root, hroot, hread⟩ := nemDefinition_eq_ok hdefinition
        rw [Option.elim_some]
        dsimp only
        rw [hroot]
        exact listed_layerOf hread
  have htypes := addLayers_types (types_eq hlisted) (layerElements node) layers hlayers
  have hrun := addLayers_eq_ok hlisted (layerElements node) layers hlayers
  by_cases hnem : config₁.nemType = .structured
  · rw [if_pos hnem] at h
    obtain ⟨rfl, hstacked⟩ := validate_eq_ok h
    refine ⟨hstacked, hrun ?_⟩
    dsimp only at hstacked
    rw [htypes] at hstacked
    exact List.pairwise_map.mp hstacked.pairwise
  · rw [if_neg hnem] at h
    cases h
    exact absurd hstructured hnem

/-- A parameter. -/
def paramElement (name value : String) : Element := .mk "param" [("name", name), ("value", value)] []

/-- The definition of a NEM with a shim above the transport, and the definition of its MAC. -/
def sampleFiles (path : String) : File :=
  if path = "nem.xml" then
    .document (.mk "nem" [] [.mk "shim" [] [], .mk "transport" [] [],
      .mk "mac" [("definition", "mac.xml")] [paramElement "rate" "2", paramElement "delay" "2"],
      .mk "phy" [] []])
  else if path = "mac.xml" then
    .document (.mk "mac" [] [paramElement "rate" "1", paramElement "delay" "1", paramElement "jitter" "1"])
  else .unreadable "No such file"

/-- A NEM that changes a parameter of the MAC and has a shim of its own. -/
def sampleNem : Element :=
  .mk "nem" [("id", "1"), ("definition", "nem.xml")]
    [.mk "mac" [("definition", "mac.xml")] [paramElement "rate" "3"], .mk "shim" [] []]

/-- What is looked at of the stack. -/
def stackOf (config : NemConfig) : NemType × List (String × List (String × List String)) :=
  (config.nemType, config.layers.map fun layer => (layer.layerType, layer.params.toList))

theorem exists_sampleNem : ∃ config, parseNem sampleFiles "platform.xml" sampleNem = .ok config ∧
    stackOf config = (.structured, [("shim", []), ("transport", []),
      ("mac", [("delay", ["2"]), ("jitter", ["1"]), ("rate", ["3"])]), ("phy", []), ("shim", [])]) :=
  exists_of_toOption_map (x := parseNem sampleFiles "platform.xml" sampleNem) (g := stackOf)
    (by decide +kernel)

theorem parseNem_structured_sample :
    ∃ config, parseNem sampleFiles "platform.xml" sampleNem = .ok config ∧
      Stacked config.externalTransport (config.layers.map LayerConfig.layerType) ∧
      List.Forall₂ (LayerOf sampleFiles (layerElements sampleNem))
        (sources sampleFiles "platform.xml" sampleNem) config.layers := by
  obtain ⟨config, hparse, hstack⟩ := exists_sampleNem
  exact ⟨config, hparse, parseNem_structured sampleFiles "platform.xml" sampleNem config hparse
    (congrArg Prod.fst hstack)⟩

/-- **A shim above the transport and one below the PHY are accepted**: the stack of a structured NEM with
a transport of its own need not start with the transport, nor end with the PHY. -/
theorem shim_below_phy :
    ∃ config, parseNem sampleFiles "platform.xml" sampleNem = .ok config ∧
      config.nemType = .structured ∧ config.externalTransport = false ∧
      (config.layers.map LayerConfig.layerType).head? = some "shim" ∧
      (config.layers.map LayerConfig.layerType).getLast? = some "shim" := by
  obtain ⟨config, hparse, hstack⟩ := exists_of_toOption_map
    (x := parseNem sampleFiles "platform.xml" sampleNem)
    (g := fun config => (config.nemType, config.externalTransport,
      config.layers.map LayerConfig.layerType))
    (b := (.structured, false, ["shim", "transport", "mac", "phy", "shim"])) (by decide +kernel)
  obtain ⟨hnem, hexternal, htypes⟩ : _ ∧ _ ∧ _ := by simpa using hstack
  exact ⟨config, hparse, hnem, hexternal, by rw [htypes]; rfl, by rw [htypes]; rfl⟩

end Emane.Platform
