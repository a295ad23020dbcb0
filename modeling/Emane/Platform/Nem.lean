import Mathlib
import Emane.Lib.TreeMap
import Emane.Antenna.Manifest

set_option autoImplicit false

/-! # The configuration of NEMs

A platform document has an element for each NEM. Most of the NEM stands in a document of its own, the
definition, which lists the layers of its stack, and each layer has a definition again. `parseNem` reads
the layers of the definition and goes through the layers that stand inside the NEM's element: a shim is
put at the end, a layer of another type changes the parameters of the layer of its type, if there is one.

The documents stand for what the file system and the parser of documents give.
-/

namespace Emane.Platform

open Emane.Lib
open Emane.Antenna (Element File joinPath parentPath)
open Std (ExtTreeMap)

/-! ## Data -/

/-- The values of the parameters, by their names. -/
abbrev ParamMap := ExtTreeMap String (List String)

structure LayerConfig where
  layerType : String
  definitionFile : Option String
  plugin : Option String
  params : ParamMap

inductive NemType
  | structured
  | unstructured
  deriving DecidableEq

structure NemConfig where
  id : ℕ
  definitionFile : Option String
  externalTransport : Bool
  nemType : NemType
  params : ParamMap
  layers : List LayerConfig

inductive ConfigurationError
  | parseError (text : String)
  | validationError (text : String)
  | fileError (text : String)
  deriving DecidableEq

/-- `ok_or_else` with a parse error. -/
def parsed {α : Type} (text : String) : Option α → Except ConfigurationError α
  | some a => .ok a
  | none => .error (.parseError text)

/-! ## Parameters -/

/-- A parameter that is there already is refused. -/
def addItem (params : ParamMap) (name : String) (values : List String) :
    Except ConfigurationError ParamMap :=
  if name ∈ params then .error (.parseError ("Duplicate configuration item '" ++ name ++ "'"))
  else .ok (params.insert name values)

/-- The attribute `value`. -/
def valueOf (node : Element) : String := (node.attributeValue "value").getD ""

/-- The body of the loop over the children. -/
def addParam (params : ParamMap) (child : Element) : Except ConfigurationError ParamMap :=
  if child.name = "param" then do
    let name ← parsed "param missing name" (child.attributeValue "name")
    addItem params name [valueOf child]
  else if child.name = "paramlist" then do
    let name ← parsed "paramlist missing name" (child.attributeValue "name")
    addItem params name ((child.childrenNamed "item").map valueOf)
  else .ok params

def parseParams (node : Element) : Except ConfigurationError ParamMap := node.children.foldlM addParam ∅

/-- The new parameters take the place of those with their names. -/
def overlayParams (base newParams : ParamMap) : ParamMap := base.insertMany newParams.toList

/-! ## Layers -/

/-- The children that are not parameters list layers. -/
def layerElements (node : Element) : List Element :=
  node.children.filter fun child => child.name != "param" && child.name != "paramlist"

/-- The plugin that an element names. -/
def pluginOf (node : Element) : Option String :=
  (node.attributeValue "plugin").or (node.attributeValue "library")

/-- The path of a definition, which is relative to the document that asks for it. -/
def definitionPath (filePath definition : String) : String :=
  joinPath ((parentPath filePath).getD "") definition

section

variable (files : String → File)

/-- The root of the document of a definition. -/
def readDefinition (path : String) : Except ConfigurationError Element :=
  match files path with
  | .unreadable error => .error (.fileError ("Failed to read " ++ path ++ ": " ++ error))
  | .malformed error => .error (.parseError error)
  | .document root => .ok root

/-- The layer of a definition. -/
def layerDefinition (filePath expectedType definition : String) :
    Except ConfigurationError LayerConfig := do
  let root ← readDefinition files (definitionPath filePath definition)
  if root.name ≠ expectedType then
    .error (.parseError ("Document root node is not '" ++ expectedType ++ "'"))
  else do
    let params ← parseParams root
    .ok ⟨expectedType, some definition, pluginOf root, params⟩

def parseLayer (filePath : String) (node : Element) (expectedType : String) :
    Except ConfigurationError LayerConfig := do
  let config ← (node.attributeValue "definition").elim (.ok ⟨expectedType, none, none, ∅⟩)
    (layerDefinition files filePath expectedType)
  let inlineParams ← parseParams node
  .ok { config with
    plugin := (pluginOf node).or config.plugin
    params := overlayParams config.params inlineParams }

/-! ## NEMs -/

/-- The definition of a NEM. -/
def nemDefinition (filePath : String) (config : NemConfig) (definition : String) :
    Except ConfigurationError NemConfig := do
  let path := definitionPath filePath definition
  let root ← readDefinition files path
  if root.name ≠ "nem" then .error (.parseError "Document root node is not 'nem'")
  else do
    let params ← parseParams root
    let layers ← (layerElements root).mapM fun child => parseLayer files path child child.name
    .ok { config with
      nemType := if root.attributeValue "type" = some "unstructured" then .unstructured else config.nemType
      definitionFile := some definition
      params := params
      layers := layers }

/-- A layer is put at the end. -/
def pushLayer (filePath : String) (layers : List LayerConfig) (child : Element) :
    Except ConfigurationError (List LayerConfig) := do
  let layer ← parseLayer files filePath child child.name
  .ok (layers ++ [layer])

/-- The body of the loop over the layers inside the NEM's element. -/
def addLayer (filePath : String) (layers : List LayerConfig) (child : Element) :
    Except ConfigurationError (List LayerConfig) :=
  if child.name = "shim" then pushLayer files filePath layers child
  else
    match layers.findIdx? fun layer => layer.layerType == child.name with
    | none => pushLayer files filePath layers child
    | some idx =>
        if (layers[idx]?.bind LayerConfig.definitionFile) ≠ child.attributeValue "definition" then
          .error (.validationError ("Unexpected definition for '" ++ child.name ++ "'"))
        else do
          let inlineLayerParams ← parseParams child
          .ok (layers.modify idx fun layer =>
            { layer with params := overlayParams layer.params inlineLayerParams })

end

/-- The places of the layers of a type. -/
def positions (types : List String) (layerType : String) : List ℕ :=
  types.zipIdx.filterMap fun place => if place.1 = layerType then some place.2 else none

/-- The types that a structured NEM may have. -/
def layerTypes : List String := ["transport", "shim", "mac", "phy"]

/-- The tests for a structured NEM. -/
def validate (config : NemConfig) : Except ConfigurationError NemConfig :=
  let types := config.layers.map LayerConfig.layerType
  let transports := positions types "transport"
  let macs := positions types "mac"
  let phys := positions types "phy"
  let expectedTransports := if config.externalTransport then 0 else 1
  let id := "NEM id " ++ toString config.id
  if transports.length ≠ expectedTransports ∨ macs.length ≠ 1 ∨ phys.length ≠ 1 then
    .error (.validationError (id ++ " must contain exactly " ++ toString expectedTransports ++
      " transport, one mac, and one phy layer"))
  -- the lists that are indexed are not empty
  else if ¬ if config.externalTransport then macs.headD 0 < phys.headD 0
      else transports.headD 0 < macs.headD 0 ∧ macs.headD 0 < phys.headD 0 then
    .error (.validationError (id ++ " layer order must be " ++
      (if config.externalTransport then "" else "transport -> ") ++ "mac -> phy (with optional shims)"))
  else
    match types.find? fun layerType => !layerTypes.contains layerType with
    | some layerType => .error (.validationError (id ++ " contains unknown layer type " ++ layerType))
    | none => .ok config

/-- `parse_nem` -/
def parseNem (files : String → File) (filePath : String) (node : Element) :
    Except ConfigurationError NemConfig := do
  let idStr ← parsed "nem missing id" (node.attributeValue "id")
  let id ← parsed ("invalid nem id: " ++ idStr) (parseUnsigned 16 idStr.toList)
  let config : NemConfig := {
    id := id
    definitionFile := none
    externalTransport := node.attributeValue "transport" = some "external"
    nemType := if node.attributeValue "type" = some "unstructured" then .unstructured else .structured
    params := ∅
    layers := [] }
  let config ← (node.attributeValue "definition").elim (.ok config) (nemDefinition files filePath config)
  let inlineParams ← parseParams node
  let layers ← (layerElements node).foldlM (addLayer files filePath) config.layers
  let config := { config with params := overlayParams config.params inlineParams, layers := layers }
  if config.nemType = .structured then validate config else .ok config

end Emane.Platform
