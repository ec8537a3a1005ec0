import GuestScript.Machine.Call

/-!
# The built-in objects

Every machine starts from one heap that holds all built-in objects: first the intrinsic ones at their fixed
addresses, then the constructors with their functions, in the order in which scripts can list them. When all
are there, each object that can be reached from a global name is protected under the name of the global that
it is reached from.
-/

namespace GuestScript

/-! ## 1. The intrinsic objects, still empty -/

namespace Intrinsic

/-- All intrinsic objects, by their address. -/
def all : List Intrinsic :=
  [objectPrototype, functionPrototype] ++ ErrorKind.all.map errorPrototype ++
    [arrayPrototype, stringPrototype, numberPrototype, booleanPrototype, symbolPrototype, datePrototype,
      regexPrototype, collectionPrototype .map, collectionPrototype .set, collectionPrototype .weakMap,
      collectionPrototype .weakSet, evalText, makeFunction]

/-- The object of a function that works on text, still without a name. -/
def textFunction (c : Callable) : Object :=
  { prototype := some functionPrototype.id
    sort := .function
    callable := some c
    properties := #[(.string "length", .data (.number 1.0) false false true)] }

/-- An intrinsic object before its functions are put on it. -/
def object : Intrinsic → Object
  | objectPrototype => {}
  | functionPrototype =>
    { prototype := some objectPrototype.id
      sort := .function
      callable := some (.builtin (.function .nothing)) }
  | errorPrototype .error => { prototype := some objectPrototype.id }
  | errorPrototype _ => { prototype := some (errorPrototype .error).id }
  | arrayPrototype => { prototype := some objectPrototype.id, sort := .array, elements := some #[] }
  | stringPrototype =>
    { prototype := some objectPrototype.id, sort := .string, primitive := some (.string "") }
  | numberPrototype =>
    { prototype := some objectPrototype.id, sort := .number, primitive := some (.number 0.0) }
  | booleanPrototype =>
    { prototype := some objectPrototype.id, sort := .boolean, primitive := some (.boolean false) }
  | symbolPrototype => { prototype := some objectPrototype.id, sort := .symbol }
  | datePrototype | regexPrototype | collectionPrototype _ => { prototype := some objectPrototype.id }
  | evalText => textFunction .evalText
  | makeFunction => textFunction .makeFunction

end Intrinsic

/-! ## 2. Putting functions on objects -/

namespace Eval

def defineGlobal (name : String) (v : Value) : Eval Unit :=
  update (.global name v)

def installMethods (target : ObjectId) (methods : List Builtin) : Eval Unit :=
  methods.forM fun b => do
    let id ← newFunction (.builtin b)
    modifyObject target fun o => o.insertHidden b.name (.object id)

/-- Put a property with only a getter on an object. -/
def installGetter (target : ObjectId) (name : String) (b : Builtin) : Eval Unit := do
  let id ← newFunction (.builtin b)
  modifyObject target fun o =>
    o.insert name
      { content := .accessor (.object id) .undefined, enumerable := false, configurable := true }

/-- Put a value that never changes on an object. -/
def installConstant (target : ObjectId) (name : String) (v : Value) : Eval Unit :=
  modifyObject target fun o => o.insert name (.data v false false false)

/-- Give an object the tag that its text shows. -/
def installTag (target : ObjectId) (tag : String) : Eval Unit :=
  modifyObject target fun o =>
    o.store (.symbol (.wellKnown .toStringTag)) (.data (.string tag) false false true)

/-- Make a constructor for the instances of a prototype, and make it a global name. -/
def installConstructor (b : Builtin) (prototype : ObjectId)
    (parent : ObjectId := Intrinsic.functionPrototype.id) : Eval ObjectId := do
  let id ← allocate (functionObject (.builtin b) parent)
  installConstant id "prototype" (.object prototype)
  modifyObject prototype fun o => o.insertHidden "constructor" (.object id)
  defineGlobal b.name (.object id)
  pure id

/-- Make an object that only holds functions, and make it a global name. -/
def installNamespace (name : String) (methods : List Builtin) : Eval ObjectId := do
  let id ← newPlain
  installMethods id methods
  defineGlobal name (.object id)
  pure id

/-! ## 3. The families -/

/-- `Object`. -/
def installObject : Eval Unit := do
  let prototype := Intrinsic.objectPrototype.id
  let constructor ← installConstructor (.object .make) prototype
  installMethods constructor <|
    [.keys, .values, .entries, .assign, .freeze, .isFrozen, .preventExtensions, .isExtensible, .create,
      .getPrototypeOf, .setPrototypeOf, .defineProperty, .defineProperties, .getOwnPropertyNames,
      .getOwnPropertySymbols, .getOwnPropertyDescriptor, .fromEntries, .is].map Builtin.object
  installMethods prototype <|
    [.hasOwnProperty, .isPrototypeOf, .propertyIsEnumerable, .toString, .toLocaleString, .valueOf].map
      Builtin.object

/-- What all functions inherit. -/
def installFunctionPrototype : Eval Unit := do
  let prototype := Intrinsic.functionPrototype.id
  installMethods prototype ([.call, .apply, .bind, .toString].map Builtin.function)
  modifyObject prototype fun o => o.insertHidden "constructor" (.object Intrinsic.makeFunction.id)

/-- `Array`. -/
def installArray : Eval Unit := do
  let prototype := Intrinsic.arrayPrototype.id
  let constructor ← installConstructor (.array .make) prototype
  installMethods constructor ([.isArray, .ofItems, .ofIterable].map Builtin.array)
  installMethods prototype <|
    [.push, .pop, .shift, .unshift, .splice, .reverse, .fill, .copyWithin, .sort, .forEach, .map, .filter,
      .anyOf, .allOf, .find, .findIndex, .findLast, .findLastIndex, .reduce, .reduceRight, .flatMap,
      .elementAt, .concat, .slice, .indexOf, .lastIndexOf, .includes, .join, .toString, .toLocaleString,
      .flat, .keys, .values, .entries, .toReversed, .toSorted, .toSpliced, .replaced].map Builtin.array

/-- `String`. -/
def installString : Eval Unit := do
  let prototype := Intrinsic.stringPrototype.id
  let constructor ← installConstructor (.string .make) prototype
  installMethods constructor ([.fromCharCode, .fromCodePoint, .raw].map Builtin.string)
  installMethods prototype <|
    [.charAt, .charCodeAt, .codePointAt, .unitAt, .indexOf, .lastIndexOf, .includes, .startsWith, .endsWith,
      .slice, .substring, .substr, .localeCompare, .toString, .valueOf, .toUpperCase, .toLowerCase,
      .toLocaleUpperCase, .toLocaleLowerCase, .trim, .trimStart, .trimEnd, .padStart, .padEnd, .repeated,
      .concat, .normalize, .split, .replace, .replaceAll, .matchFirst, .matchAll, .search].map
      Builtin.string

/-- The constants of `Number`. -/
def numberConstants : List (String × Float) :=
  [("MAX_SAFE_INTEGER", Number.maxSafeInteger), ("MIN_SAFE_INTEGER", -Number.maxSafeInteger),
    ("MAX_VALUE", Float.ofBits 0x7FEFFFFFFFFFFFFF), ("MIN_VALUE", Float.ofBits 1),
    ("EPSILON", Float.ofBits 0x3CB0000000000000), ("POSITIVE_INFINITY", Number.infinity),
    ("NEGATIVE_INFINITY", -Number.infinity), ("NaN", Number.nan)]

/-- `Number`. -/
def installNumber : Eval ObjectId := do
  let prototype := Intrinsic.numberPrototype.id
  let constructor ← installConstructor (.number .make) prototype
  numberConstants.forM fun entry => installConstant constructor entry.1 (.number entry.2)
  installMethods constructor ([.isFinite, .isNaN, .isInteger, .isSafeInteger].map Builtin.number)
  installMethods prototype <|
    [.toString, .toLocaleString, .valueOf, .toFixed, .toExponential, .toPrecision].map Builtin.number
  pure constructor

/-- `Boolean`. -/
def installBoolean : Eval Unit := do
  let prototype := Intrinsic.booleanPrototype.id
  discard <| installConstructor (.boolean .make) prototype
  installMethods prototype ([.toString, .valueOf].map Builtin.boolean)

/-- `Symbol`. -/
def installSymbol : Eval Unit := do
  let prototype := Intrinsic.symbolPrototype.id
  let constructor ← installConstructor (.symbol .make) prototype
  WellKnownSymbol.all.forM fun s => installConstant constructor s.name (.symbol (.wellKnown s))
  installMethods constructor ([.registered, .keyFor].map Builtin.symbol)
  installMethods prototype ([.toString, .valueOf].map Builtin.symbol)
  installGetter prototype "description" (.symbol .description)
  installTag prototype "Symbol"

def installError (kind : ErrorKind) (parent : ObjectId) : Eval ObjectId := do
  let prototype := (Intrinsic.errorPrototype kind).id
  modifyObject prototype fun o =>
    (o.insertHidden "name" (.string kind.name)).insertHidden "message" (.string "")
  installConstructor (.makeError kind) prototype parent

/-- The constructors of errors; all inherit from the first one. -/
def installErrors : Eval Unit := do
  let base ← installError .error Intrinsic.functionPrototype.id
  installMethods (Intrinsic.errorPrototype .error).id [.errorToString]
  (ErrorKind.all.drop 1).forM fun kind => discard <| installError kind base

/-- The constants of `Math`. -/
def mathConstants : List (String × Float) :=
  [("PI", 3.141592653589793), ("E", 2.718281828459045), ("LN2", 0.6931471805599453),
    ("LN10", 2.302585092994046), ("LOG2E", 1.4426950408889634), ("LOG10E", 0.4342944819032518),
    ("SQRT2", 1.4142135623730951), ("SQRT1_2", 0.7071067811865476)]

/-- `Math`. -/
def installMath : Eval Unit := do
  let id ← installNamespace "Math" <|
    [.abs, .ceil, .floor, .round, .trunc, .sign, .sqrt, .cbrt, .exp, .expm1, .log, .log1p, .log2, .log10,
      .sin, .cos, .tan, .asin, .acos, .atan, .sinh, .cosh, .tanh, .asinh, .acosh, .atanh, .fround, .clz32,
      .max, .min, .pow, .atan2, .hypot, .imul, .random].map Builtin.math
  mathConstants.forM fun entry => installConstant id entry.1 (.number entry.2)
  modifyObject id fun o => { o with sort := .math }
  installTag id "Math"

/-- `JSON`. -/
def installJson : Eval Unit := do
  let id ← installNamespace "JSON" ([.parse, .stringify].map Builtin.json)
  installTag id "JSON"

/-- The parts of a date that can be written, in order. -/
def writableFields : List DateField :=
  [.year, .month, .day, .hours, .minutes, .seconds, .milliseconds]

/-- `Date`. -/
def installDate : Eval Unit := do
  let prototype := Intrinsic.datePrototype.id
  let constructor ← installConstructor (.date .make) prototype
  installMethods constructor ([.now, .parse, .utc].map Builtin.date)
  let readers := (writableFields ++ [DateField.weekday]).flatMap fun f =>
    [DateMethod.read f false, DateMethod.read f true]
  let writers := writableFields.flatMap fun f => [DateMethod.write f false, DateMethod.write f true]
  let others : List DateMethod :=
    [.getTime, .valueOf, .setTime, .getTimezoneOffset, .toISOString, .toJSON, .toString, .toUTCString,
      .toDateString, .toTimeString, .toLocaleDateString, .toLocaleTimeString, .toLocaleString]
  installMethods prototype ((readers ++ writers ++ others).map Builtin.date)

/-- The getters of regular expressions. -/
def regexGetters : List (String × RegexMethod) :=
  [("source", .source), ("flags", .flags), ("global", .global), ("ignoreCase", .ignoreCase),
    ("multiline", .multiline), ("dotAll", .dotAll), ("unicode", .unicode), ("sticky", .sticky),
    ("hasIndices", .hasIndices)]

/-- `RegExp`. -/
def installRegex : Eval Unit := do
  let prototype := Intrinsic.regexPrototype.id
  discard <| installConstructor (.regex .make) prototype
  installMethods prototype ([.exec, .test, .toString].map Builtin.regex)
  regexGetters.forM fun entry => installGetter prototype entry.1 (.regex entry.2)

/-- One of the keyed collections. -/
def installCollection (kind : CollectionKind) : Eval Unit := do
  let prototype := (Intrinsic.collectionPrototype kind).id
  discard <| installConstructor (.makeCollection kind) prototype
  let writers : List CollectionMethod := if kind.isKeyed then [.get, .set] else [.add]
  let listers : List CollectionMethod :=
    if kind.isWeak then [] else [.clear, .forEach, .keys, .values, .entries]
  installMethods prototype (([CollectionMethod.has, .delete] ++ writers ++ listers).map (Builtin.collection kind))
  if !kind.isWeak then installGetter prototype "size" (.collection kind .size)
  installTag prototype kind.name

/-- The functions that are global names; the two that read numbers belong to `Number` too. -/
def installGlobals (number : ObjectId) : Eval Unit := do
  let methods : List GlobalMethod :=
    [.parseInt, .parseFloat, .isNaN, .isFinite, .encodeURI, .encodeURIComponent, .decodeURI,
      .decodeURIComponent, .escape, .unescape]
  methods.forM fun method => do
    let b := Builtin.global method
    let v := Value.object (← newFunction (.builtin b))
    if method = .parseInt || method = .parseFloat then
      modifyObject number fun o => o.insertHidden b.name v
    defineGlobal b.name v

/-- The two functions that work on text. -/
def installTextFunctions : Eval Unit := do
  let rename (id : ObjectId) (name : String) : Eval Unit :=
    modifyObject id fun o => o.insert "name" (.data (.string name) false false true)
  rename Intrinsic.evalText.id "eval"
  defineGlobal "eval" (.object Intrinsic.evalText.id)
  rename Intrinsic.makeFunction.id "Function"
  installConstant Intrinsic.makeFunction.id "prototype" (.object Intrinsic.functionPrototype.id)
  defineGlobal "Function" (.object Intrinsic.makeFunction.id)

/-- All built-in objects. -/
def installAll : Eval Unit := do
  Intrinsic.all.forM fun i => discard <| allocate i.object
  defineGlobal "undefined" .undefined
  defineGlobal "NaN" (.number Number.nan)
  defineGlobal "Infinity" (.number Number.infinity)
  installObject
  installFunctionPrototype
  installArray
  installString
  let number ← installNumber
  installBoolean
  installSymbol
  installErrors
  installMath
  installJson
  installDate
  installRegex
  [CollectionKind.map, .set, .weakMap, .weakSet].forM installCollection
  installGlobals number
  installTextFunctions

end Eval

/-! ## 4. Protection -/

namespace Object

def heldBy (p : Property) : List ObjectId :=
  match p.content with
  | .data v _ => v.object?.toList
  | .accessor getter setter => getter.object?.toList ++ setter.object?.toList

def neighbours (o : Object) : List ObjectId :=
  o.properties.toList.flatMap (fun entry => heldBy entry.2) ++ o.prototype.toList

end Object

namespace Realm

/-- Walk over all objects that can be reached, depth first; an object without a label takes the one that it
is reached with. The result is what is still listed, and the labels. -/
def walk (heap : Array Object) : Nat → List (ObjectId × String) → Array Bool → Array (Option String) →
    List (ObjectId × String) × Array (Option String)
  | 0, l, _, labels => (l, labels)
  | _ + 1, [], _, labels => ([], labels)
  | fuel + 1, (id, label) :: rest, seen, labels =>
    if seen.getD id.index true then walk heap fuel rest seen labels
    else
      let labels := labels.modify id.index fun l => l.or (some label)
      let next := (heap.getD id.index default).neighbours.map fun n => (n, label)
      walk heap fuel (next ++ rest) (seen.setIfInBounds id.index true) labels

/-- The objects that protection starts from, the last of them first. -/
def roots (globals : List (String × Value)) : List (ObjectId × String) :=
  let named := globals.filterMap fun entry => entry.2.object?.map fun id => (id, entry.1)
  (named ++ [(Intrinsic.objectPrototype.id, "Object"), (Intrinsic.functionPrototype.id, "Function")]).reverse

/-- The labels of all objects that can be reached. Global objects keep their own names. -/
def labelsOf (heap : Array Object) (globals : List (String × Value)) : Array (Option String) :=
  let start := roots globals
  let own := start.foldr (fun entry labels => labels.setIfInBounds entry.1.index (some entry.2))
    (Array.replicate heap.size none)
  let edges := heap.foldl (fun n o => n + o.neighbours.length) start.length
  (walk heap (edges + 1) start (Array.replicate heap.size false) own).2

end Realm

/-! ## 5. The first machine -/

/-- The machine with every object protected that can be reached. -/
def Machine.sealed (m : Machine) : Machine :=
  { m with realm := { m.realm with labels := Realm.labelsOf m.heap m.realm.globals } }

/-- The machine with all built-in objects, each protected. It is far too large to be unfolded by the way. -/
@[irreducible] def Machine.initial : Machine :=
  (finalMachine (Eval.installAll.runOn {})).sealed

end GuestScript
