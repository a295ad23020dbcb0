import Mathlib
import Emane.Lib.Numerals
import Emane.Lib.SpanMap
import Emane.PluginApi.Tables

set_option autoImplicit false

/-! # Antenna patterns

An antenna pattern is read from the elements of a document: sections of elevation ranges, which have
bearing ranges, which have gains. `AntennaPattern` keeps them as two nested maps from the upper ends of
the ranges. The loops over the elements stop at the first one they refuse.

The documents stand for what the file system and the parser of documents give, and the numbers with a
decimal point are read by a parameter `parseF64`.
-/

namespace Emane.Antenna

open Emane.Lib
open Emane.PluginApi (F64)
open Std (ExtTreeMap)

/-! ## Documents -/

/-- An element with its attributes and the elements in it. -/
inductive Element
  | mk (name : String) (attributes : List (String × String)) (children : List Element)

namespace Element

def name : Element → String
  | mk name _ _ => name

/-- `attribute` -/
def attributeValue : Element → String → Option String
  | mk _ attributes _, key => attributes.lookup key

def children : Element → List Element
  | mk _ _ children => children

/-- The elements with a name among the children. -/
def childrenNamed (node : Element) (name : String) : List Element :=
  node.children.filter fun child => child.name == name

end Element

/-- What reading a file and parsing its content give. -/
inductive File
  | unreadable (error : String)
  | malformed (error : String)
  | document (root : Element)

/-- `ok_or_else` -/
def okOr {α : Type} (error : String) : Option α → Except String α
  | some a => .ok a
  | none => .error error

/-- The text after a prefix, if it is there. -/
def stripPrefix (start : String) (text : String) : Option String :=
  if start.toList.isPrefixOf text.toList then
    some (String.ofList (text.toList.drop start.toList.length))
  else none

/-- `file_uri_path` -/
def fileUriPath (uri : String) : Except String String :=
  match stripPrefix "file://" uri with
  | some path =>
      if path.toList.head? = some '/' then .ok path
      else
        match stripPrefix "localhost/" path with
        | some path => .ok ("/" ++ path)
        | none => .error ("unsupported non-local file URI: " ++ uri)
  | none => .ok uri

/-- The document of a file; `uri` is how it was asked for. -/
def readDocument (files : String → File) (path uri : String) : Except String Element :=
  match files path with
  | .unreadable error => .error ("Unable to read " ++ path ++ ": " ++ error)
  | .malformed error => .error ("Validation failure " ++ uri ++ ": " ++ error)
  | .document root => .ok root

/-! ## Reading a pattern -/

def badEntry (uri what : String) : String := "Bad entry " ++ uri ++ ": " ++ what

/-- A range in an error. -/
def rangeText (low high : ℤ) : String := "[" ++ toString low ++ "," ++ toString high ++ "]"

/-- An end of a range: the attribute `min` or `max` of an elevation or a bearing. -/
def readBound (uri what bound : String) (node : Element) : Except String ℤ := do
  let text ← okOr (badEntry uri (what ++ " missing " ++ bound)) (node.attributeValue bound)
  okOr (badEntry uri (what ++ " " ++ bound ++ " parse")) (parseSigned 15 text.toList)

/-- The smallest 16-bit number, which has no number below it. -/
def i16Min : ℤ := -32768

section

variable (parseF64 : String → Option F64) (uri : String) (missing : F64)

/-- The body of the loop over the gains of a bearing. -/
def addGain (bearingMin bearingMax : ℤ) (gains : ExtTreeMap ℤ F64) (node : Element) :
    Except String (ExtTreeMap ℤ F64) := do
  let text ← okOr (badEntry uri "gain missing value") (node.attributeValue "value")
  let gain ← okOr (badEntry uri "gain value parse") (parseF64 text)
  if !gain.isFinite then .error (badEntry uri "gain must be finite")
  else if bearingMin = i16Min then .error (badEntry uri "bearing minimum is out of range")
  else .ok (addSpan missing gains ⟨bearingMin, bearingMax, gain⟩)

/-- The map of a loop over ranges, with the end of the last range. -/
structure Scan (α : Type) where
  map : ExtTreeMap ℤ α
  rangeMax : ℤ
  first : Bool

/-- A loop over ranges starts. -/
def Scan.start {α : Type} (map : ExtTreeMap ℤ α) : Scan α := ⟨map, 0, true⟩

/-- The range that begins at `low` is not after the last one. -/
def Scan.refuses {α : Type} (scan : Scan α) (low : ℤ) : Bool :=
  !scan.first && low ≤ scan.rangeMax && !scan.map.isEmpty

/-- The body of the loop over the bearings of an elevation. -/
def addBearing (elevationMin elevationMax : ℤ) (scan : Scan F64) (node : Element) :
    Except String (Scan F64) := do
  let bearingMin ← readBound uri "bearing" "min" node
  let bearingMax ← readBound uri "bearing" "max" node
  if bearingMin > bearingMax then
    .error (badEntry uri ("elevation " ++ rangeText elevationMin elevationMax ++ " bearing " ++
      rangeText bearingMin bearingMax ++ " min > max"))
  else if scan.refuses bearingMin then
    .error (badEntry uri ("elevation " ++ rangeText elevationMin elevationMax ++ " bearing " ++
      rangeText bearingMin bearingMax ++ " may be out of order or overlap"))
  else do
    let gains ← (node.childrenNamed "gain").foldlM
      (addGain parseF64 uri missing bearingMin bearingMax) scan.map
    .ok ⟨gains, bearingMax, false⟩

/-- The body of the loop over the elevations of a section. -/
def addElevation (scan : Scan (Option (ExtTreeMap ℤ F64))) (node : Element) :
    Except String (Scan (Option (ExtTreeMap ℤ F64))) := do
  let elevationMin ← readBound uri "elevation" "min" node
  let elevationMax ← readBound uri "elevation" "max" node
  if elevationMin > elevationMax then
    .error (badEntry uri ("elevation " ++ rangeText elevationMin elevationMax ++ " min > max"))
  else if scan.refuses elevationMin then
    .error (badEntry uri ("elevation " ++ rangeText elevationMin elevationMax ++
      " may be out of order or overlap with a previous elevation"))
  else do
    let bearings ← (node.childrenNamed "bearing").foldlM
      (addBearing parseF64 uri missing elevationMin elevationMax) (Scan.start ∅)
    if elevationMin = i16Min then .error (badEntry uri "elevation minimum is out of range")
    else .ok ⟨addSpan none scan.map ⟨elevationMin, elevationMax, some bearings.map⟩, elevationMax, false⟩

/-- The body of the loop over the sections of a pattern. The end of the last elevation is forgotten
with each new section. -/
def addSection (map : ExtTreeMap ℤ (Option (ExtTreeMap ℤ F64))) (node : Element) :
    Except String (ExtTreeMap ℤ (Option (ExtTreeMap ℤ F64))) := do
  let scan ← (node.childrenNamed "elevation").foldlM (addElevation parseF64 uri missing)
    (Scan.start map)
  .ok scan.map

end

/-- The missing value of an antenna pattern, -327.0. -/
def dbmMin : F64 := ⟨0xc074700000000000⟩

structure AntennaPattern where
  elevationBearingGain : ExtTreeMap ℤ (Option (ExtTreeMap ℤ F64))
  missingValue : F64

namespace AntennaPattern

/-- `AntennaPattern::new` from the root of the document on. -/
def ofRoot (parseF64 : String → Option F64) (uri subRootName : String) (missing : F64)
    (root : Element) : Except String AntennaPattern :=
  if root.name ≠ "antennaprofile" then .error ("Invalid antenna pattern root " ++ uri)
  else do
    let map ← (root.childrenNamed subRootName).foldlM (addSection parseF64 uri missing) ∅
    if map.isEmpty then .error (badEntry uri ("missing " ++ subRootName))
    else .ok ⟨map, missing⟩

/-- `AntennaPattern::new` -/
def new (parseF64 : String → Option F64) (files : String → File) (uri subRootName : String)
    (missing : F64) : Except String AntennaPattern := do
  let path ← fileUriPath uri
  let root ← readDocument files path uri
  ofRoot parseF64 uri subRootName missing root

/-- `get_gain` -/
def getGain (pattern : AntennaPattern) (bearing elevation : ℤ) : F64 :=
  let bearing := if bearing = 360 then 0 else bearing
  match lookupSpan pattern.elevationBearingGain elevation with
  | some (some bearings) => (lookupSpan bearings bearing).getD pattern.missingValue
  | _ => pattern.missingValue

end AntennaPattern

end Emane.Antenna
