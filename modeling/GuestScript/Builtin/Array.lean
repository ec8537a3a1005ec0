import GuestScript.Builtin.Object

/-!
# `Array`

Every function first reads all elements, of an array or of an object with a length, and works on that list;
the functions that change their receiver write the new list back, element by element unless the receiver is
an array.

Sizes are read before the arguments are converted, and a conversion may call a function of the script that changes the
receiver. So where a range or an index of a list is used, it is checked there: the host panics when it is outside of the
list (`Eval.checkBounds`).
-/

namespace GuestScript

/-! ## 1. Lists of elements -/

namespace Elements

/-- Replace `count` elements from `start` on by others. -/
def splice (elements : Array Value) (start count : Nat) (items : Array Value) : Array Value :=
  elements.extract 0 start ++ items ++ elements.extract (start + count) elements.size

/-- Set the elements from `start` on, before `stop`, to one value. -/
def fill (elements : Array Value) (value : Value) (start stop : Nat) : Array Value :=
  elements.mapIdx fun i v => if start ≤ i && i < stop then value else v

/-- Copy a run of elements over those from `target` on, as far as `size` places go. -/
def copyWithin (elements : Array Value) (size target start stop : Nat) : Array Value :=
  let count := min (stop - start) (size - target)
  let chunk := elements.extract start (start + count)
  splice elements target chunk.size chunk

/-- Whether a range is in order and within a list of `size` elements. -/
def fits (size start stop : Nat) : Bool :=
  start ≤ stop && stop ≤ size

/-- Whether what `copyWithin` reads and writes is within a list of `now` elements. -/
def copyFits (now size target start stop : Nat) : Bool :=
  let count := min (stop - start) (size - target)
  target ≤ size && fits now start (start + count) && (count == 0 || fits now target (target + count))

/-- The elements with their indices. -/
def indexed (elements : Array Value) : List (Nat × Value) :=
  elements.toList.zipIdx.map fun entry => (entry.2, entry.1)

end Elements

namespace Eval

def elementsOf (receiver : Value) : Eval (Array Value) := do
  let id ← toObject receiver
  listOf (.object id)

/-- Add values to a list, with the elements of inner arrays in place of the arrays, down to a depth. An array may
be inside itself, which has no end. -/
def flatten : Nat → Float → List Value → Array Value → Eval (Array Value)
  | 0, _, _, _ => stop .exhausted
  | fuel + 1, depth, values, acc =>
    values.foldlM
      (fun acc v => do
        match v with
        | .object id =>
          let o ← object id
          if depth ≥ 1.0 && o.isArray then
            flatten fuel (depth - 1.0) (o.elements.getD #[]).toList acc
          else pure (acc.push v)
        | _ => pure (acc.push v))
      acc

/-- Write elements back to an object that is no array. -/
def writeElements (target : Value) : List Value → Nat → Eval Unit
  | [], _ => pure ()
  | v :: rest, i => do
    put target (.index i) v
    writeElements target rest (i + 1)

/-- Delete the elements from an index on, as many as there were. -/
def deleteElements (target : Value) : Nat → Nat → Eval Unit
  | 0, _ => pure ()
  | count + 1, i => do
    discard <| deleteProperty target (.index i)
    deleteElements target count (i + 1)

/-- Go on when an index or a range is within a list. -/
def checkBounds (fits : Bool) : Eval Unit :=
  if fits then pure () else stop .panicked

/-- Change the elements of a receiver, when the change fits the number of elements that there are now. -/
def changeElementsIf {α : Type} (receiver : Value) (fits : Nat → Bool) (f : Array Value → Array Value × α) :
    Eval α := do
  let id ← toObject receiver
  checkMutable id
  let o ← object id
  if o.frozen then throwTypeError "Cannot modify a frozen array"
  else if o.elements.isSome then
    checkBounds (fits (o.elements.getD #[]).size)
    updateObject id fun o => o.changeElements f
  else
    let target := Value.object id
    let old ← listOf target
    checkBounds (fits old.size)
    let (elements, a) := f old
    writeElements target elements.toList 0
    deleteElements target (old.size - elements.size) elements.size
    putNamed target "length" (.ofNat elements.size)
    pure a

/-- Change the elements of a receiver, however many there are. -/
def changeElements {α : Type} (receiver : Value) (f : Array Value → Array Value × α) : Eval α :=
  changeElementsIf receiver (fun _ => true) f

/-- The function that is the first argument. -/
def callbackArgument (args : Array Value) (method : String) : Eval Value := do
  let f := argument args 0
  requireCallable f method
  pure f

/-! ## 2. Callbacks -/

/-- Call a callback for an element. -/
def visit (f receiver subject : Value) (i : Nat) (v : Value) : Eval Value :=
  callback f receiver #[v, .ofNat i, subject]

/-- The results of a callback for all elements. -/
def mapElements (f : Nat → Value → Eval Value) :
    List (Nat × Value) → Array Value → Eval (Array Value)
  | [], acc => pure acc
  | (i, v) :: rest, acc => do
    let r ← f i v
    mapElements f rest (acc.push r)

/-- The elements that a callback keeps. -/
def filterElements (f : Nat → Value → Eval Value) :
    List (Nat × Value) → Array Value → Eval (Array Value)
  | [], acc => pure acc
  | (i, v) :: rest, acc => do
    let keep ← f i v
    filterElements f rest (if keep.truthy then acc.push v else acc)

/-- The first element for which a callback has a result of the wanted truth. -/
def findElement (f : Nat → Value → Eval Value) (wanted : Bool) :
    List (Nat × Value) → Eval (Option (Nat × Value))
  | [] => pure none
  | (i, v) :: rest => do
    if (← f i v).truthy == wanted then pure (some (i, v)) else findElement f wanted rest

def foldElements (f : Value) (subject : Value) : List (Nat × Value) → Value → Eval Value
  | [], acc => pure acc
  | (i, v) :: rest, acc => do
    let acc ← callback f .undefined #[acc, v, .ofNat i, subject]
    foldElements f subject rest acc

/-- Fold the elements, from the given value or else from the first element. -/
def reduceElements (subject : Value) (args : Array Value) (elements : List (Nat × Value)) :
    Eval Value := do
  let f ← callbackArgument args "Array.prototype.reduce"
  match args[1]?, elements with
  | some v, _ => foldElements f subject elements v
  | none, (_, v) :: rest => foldElements f subject rest v
  | none, [] => throwTypeError "Reduce of empty array with no initial value"

/-- The first element that a callback accepts. -/
def searchElements (subject : Value) (args : Array Value) (fromEnd : Bool) (method : String) :
    Eval (Option (Nat × Value)) := do
  let f ← callbackArgument args method
  let elements := Elements.indexed (← elementsOf subject)
  findElement (visit f (argument args 1) subject) true
    (if fromEnd then elements.reverse else elements)

/-! ## 3. Sorting -/

/-- Merge two sorted lists; `count` is how many elements they have together. -/
def merge (keepsOrder : Value → Value → Eval Bool) :
    Nat → List Value → List Value → List Value → Eval (List Value)
  | count + 1, l :: ls, r :: rs, acc => do
    if ← keepsOrder l r then merge keepsOrder count ls (r :: rs) (l :: acc)
    else merge keepsOrder count (l :: ls) rs (r :: acc)
  | _, ls, rs, acc => pure (acc.reverse ++ ls ++ rs)

/-- Sort by merging halves, which keeps the order of elements that are equal. -/
def mergeSort (keepsOrder : Value → Value → Eval Bool) : Nat → List Value → Eval (List Value)
  | 0, values => pure values
  | fuel + 1, values => do
    if values.length ≤ 1 then pure values
    else
      let half := values.length / 2
      let left ← mergeSort keepsOrder fuel (values.take half)
      let right ← mergeSort keepsOrder fuel (values.drop half)
      merge keepsOrder values.length left right []

/-- Sort by a function, or by text when there is none; `undefined` goes last. -/
def sortValues (values : Array Value) (compare : Value) : Eval (Array Value) := do
  let (defined, missing) := values.toList.partition fun v => !v.isUndefined
  let sorted ←
    if compare.isUndefined then do
      let keyed ← defined.mapM fun v => return (← toText v, v)
      pure ((keyed.mergeSort fun a b => !Text.before b.1 a.1).map Prod.snd)
    else
      mergeSort
        (fun a b => do
          let order ← toNumber (← callback compare .undefined #[a, b])
          return !(order > 0.0))
        defined.length defined
  pure (sorted ++ missing).toArray

/-- A function to sort with, or `undefined`. -/
def compareArgument (args : Array Value) (method : String) : Eval Value := do
  let compare := argument args 0
  if !compare.isUndefined then requireCallable compare method
  pure compare

/-! ## 4. Joining -/

/-- The texts of elements with a separator between them; `undefined` and `null` are empty. -/
def joinElements (separator : String) : List Value → Bool → String → Eval String
  | [], _, acc => pure acc
  | v :: rest, isFirst, acc => do
    let acc := if isFirst then acc else acc ++ separator
    let text ← if v.isNullish then pure "" else toText v
    joinElements separator rest false (acc ++ text)

/-- The text of a receiver's elements. An array inside itself is empty text. -/
def joinReceiver (receiver separator : Value) : Eval String := do
  let separator ← if separator.isUndefined then pure "," else toText separator
  match receiver with
  | .object id =>
    if ← read fun m => m.joining.contains id then pure ""
    else
      within (.joining id) do
        joinElements separator (← elementsOf receiver).toList true ""
  | _ => joinElements separator (← elementsOf receiver).toList true ""

/-! ## 5. Arguments -/

/-- How many elements a splice takes out. -/
def deleteCount (args : Array Value) (size start : Nat) : Eval Nat := do
  match args.size with
  | 0 => pure 0
  | 1 =>
    checkBounds (start ≤ size)
    pure (size - start)
  | _ =>
    let n ← toInteger (argument args 1)
    checkBounds (start ≤ size)
    let rest := Number.ofNat (size - start)
    pure (Number.toNatural64 (if n < 0.0 then 0.0 else if n > rest then rest else n))

/-- The values that `Array.from` starts with. -/
def sourceValues (source : Value) : Eval (Array Value) := do
  match source with
  | .undefined | .null => throwTypeError ((← display source) ++ " is not iterable")
  | .string _ => iterate source "Array.from"
  | .object id =>
    let o ← object id
    if o.elements.isSome || o.mapEntries.isSome || o.setEntries.isSome then
      iterate source "Array.from"
    else listOf source
  | _ => listOf source

def constructorElements (args : Array Value) : Eval (Array Value) := do
  match args.toList with
  | [.number x] =>
    if Object.isLength x then pure (Array.replicate (Number.toNatural64 x) .undefined)
    else throwFault .rangeError "Invalid array length"
  | _ => pure args

/-- The last index up to a start where a value stands. -/
def lastIndexIn (elements : Array Value) (v : Value) (start : Nat) : Option Nat :=
  ((Elements.indexed elements).filter fun entry =>
    entry.1 ≤ start && entry.2.strictEquals v).getLast?.map Prod.fst

/-- Where a search from the end starts; `none` before the first element. -/
def lastStart (args : Array Value) (size : Nat) : Eval (Option Nat) := do
  match args[1]? with
  | none => pure (some (size - 1))
  | some v =>
    let n ← toInteger v
    if n < 0.0 then
      let i := Number.ofNat size + n
      pure (if i < 0.0 then none else some (Number.toNatural64 i))
    else pure (some (min (Number.toNatural64 n) (size - 1)))

/-- The number of an index that may be missing. -/
def indexOrMinusOne : Option Nat → Value
  | some i => .ofNat i
  | none => .number (-1.0)

/-- The index that a relative index stands for; it may be outside of the list. -/
def absoluteIndex (n : Float) (size : Nat) : Float :=
  if n < 0.0 then Number.ofNat size + n else n

/-- The place of a relative index; `none` before the first element. -/
def placeOf (v : Value) (size : Nat) : Eval (Option Nat) := do
  let i := absoluteIndex (← toInteger v) size
  pure (if i < 0.0 then none else some (Number.toNatural64 i))

end Eval

/-! ## 6. The functions -/

open Eval in
/-- What the functions of `Array` do that change their receiver. -/
def ArrayMethod.change (method : ArrayMethod) (receiver : Value) (args : Array Value) :
    Eval Value := do
  match method with
  | .pop => changeElements receiver fun es => (es.pop, es.back?.getD .undefined)
  | .shift => changeElements receiver fun es => (es.extract 1 es.size, es[0]?.getD .undefined)
  | .unshift => changeElements receiver fun es => (args ++ es, .ofNat (args.size + es.size))
  | .splice =>
    let size := (← elementsOf receiver).size
    let start ← relativeArgument (argument args 0) size 0
    let count ← deleteCount args size start
    let stop (now : Nat) := min (start + count) now
    let start (now : Nat) := min start (stop now)
    let removed ← changeElementsIf receiver (fun now => Elements.fits now (start now) (stop now)) fun es =>
      let stop := stop es.size
      let start := start es.size
      (Elements.splice es start (stop - start) (args.extract 2 args.size), es.extract start stop)
    newArray removed
  | .reverse =>
    changeElements receiver fun es => (es.reverse, ())
    pure receiver
  | .fill =>
    let size := (← elementsOf receiver).size
    let start ← relativeArgument (argument args 1) size 0
    let stop ← relativeArgument (argument args 2) size size
    changeElements receiver fun es => (Elements.fill es (argument args 0) start stop, ())
    pure receiver
  | .copyWithin =>
    let size := (← elementsOf receiver).size
    let target ← relativeArgument (argument args 0) size 0
    let start ← relativeArgument (argument args 1) size 0
    let stop ← relativeArgument (argument args 2) size size
    changeElementsIf receiver (fun now => Elements.copyFits now size target start stop) fun es =>
      (Elements.copyWithin es size target start stop, ())
    pure receiver
  | .sort =>
    let compare ← compareArgument args "Array.prototype.sort"
    let sorted ← sortValues (← elementsOf receiver) compare
    changeElements receiver fun _ => (sorted, ())
    pure receiver
  | _ => changeElements receiver fun es => (es ++ args, .ofNat (es.size + args.size))

open Eval in
/-- What the functions of `Array` do that call a function for each element. -/
def ArrayMethod.iterate (method : ArrayMethod) (receiver : Value) (args : Array Value) :
    Eval Value := do
  let name := "Array.prototype." ++ method.signature.1
  let search (fromEnd : Bool) := searchElements receiver args fromEnd name
  let each (f : Value) := visit f (argument args 1) receiver
  match method with
  | .map =>
    let f ← callbackArgument args name
    newArray (← mapElements (each f) (Elements.indexed (← elementsOf receiver)) #[])
  | .filter =>
    let f ← callbackArgument args name
    newArray (← filterElements (each f) (Elements.indexed (← elementsOf receiver)) #[])
  | .anyOf => return .boolean (← search false).isSome
  | .allOf =>
    let f ← callbackArgument args name
    return .boolean (← findElement (each f) false (Elements.indexed (← elementsOf receiver))).isNone
  | .find => return ((← search false).map Prod.snd).getD .undefined
  | .findIndex => return indexOrMinusOne ((← search false).map Prod.fst)
  | .findLast => return ((← search true).map Prod.snd).getD .undefined
  | .findLastIndex => return indexOrMinusOne ((← search true).map Prod.fst)
  | .reduce => reduceElements receiver args (Elements.indexed (← elementsOf receiver))
  | .reduceRight => reduceElements receiver args (Elements.indexed (← elementsOf receiver)).reverse
  | .flatMap =>
    let f ← callbackArgument args name
    let mapped ← mapElements (each f) (Elements.indexed (← elementsOf receiver)) #[]
    newArray (← flatten nestingLimit 1.0 mapped.toList #[])
  | _ =>
    let f ← callbackArgument args name
    discard <| mapElements (each f) (Elements.indexed (← elementsOf receiver)) #[]
    pure .undefined

open Eval in
/-- What the other functions of `Array` do. -/
def ArrayMethod.access (method : ArrayMethod) (receiver : Value) (args : Array Value) :
    Eval Value := do
  let first := argument args 0
  match method with
  | .elementAt =>
    let es ← elementsOf receiver
    return ((← placeOf first es.size).bind fun i => es[i]?).getD .undefined
  | .concat =>
    let es ← elementsOf receiver
    newArray (← flatten nestingLimit 1.0 args.toList es)
  | .slice =>
    let es ← elementsOf receiver
    let start ← relativeArgument first es.size 0
    let stop ← relativeArgument (argument args 1) es.size es.size
    newArray (es.extract start stop)
  | .indexOf =>
    let es ← elementsOf receiver
    let start ← relativeArgument (argument args 1) es.size 0
    let found := (Elements.indexed es).find? fun entry =>
      start ≤ entry.1 && entry.2.strictEquals first
    pure (indexOrMinusOne (found.map Prod.fst))
  | .lastIndexOf =>
    let es ← elementsOf receiver
    if es.isEmpty then pure (indexOrMinusOne none)
    else
      match ← lastStart args es.size with
      | none => pure (indexOrMinusOne none)
      | some start =>
        checkBounds (start < es.size)
        pure (indexOrMinusOne (lastIndexIn es first start))
  | .includes =>
    let es ← elementsOf receiver
    let start ← relativeArgument (argument args 1) es.size 0
    pure (.boolean ((es.extract start es.size).any fun v => v.sameValueZero first))
  | .join => return .string (← joinReceiver receiver first)
  | .toString =>
    let join ← getNamed receiver "join"
    if ← isCallable join then call join receiver #[]
    else return .string (← taggedText receiver)
  | .toLocaleString => return .string (← joinReceiver receiver .undefined)
  | .flat =>
    let depth ← if first.isUndefined then pure 1.0 else toInteger first
    let es ← elementsOf receiver
    newArray (← flatten nestingLimit depth es.toList #[])
  | .keys =>
    let es ← elementsOf receiver
    newArray ((Array.range es.size).map Value.ofNat)
  | .values => newArray (← elementsOf receiver)
  | .entries =>
    let es ← elementsOf receiver
    newArray (← newPairs ((Elements.indexed es).map fun entry => (.ofNat entry.1, entry.2)))
  | .toReversed => newArray (← elementsOf receiver).reverse
  | .toSorted =>
    let compare ← compareArgument args "Array.prototype.toSorted"
    newArray (← sortValues (← elementsOf receiver) compare)
  | .toSpliced =>
    let es ← elementsOf receiver
    let start ← relativeArgument first es.size 0
    let count ← deleteCount args es.size start
    checkBounds (Elements.fits es.size start (start + count))
    newArray (Elements.splice es start count (args.extract 2 args.size))
  | _ =>
    let es ← elementsOf receiver
    let i := absoluteIndex (← toInteger first) es.size
    if i < 0.0 || Number.ofNat es.size ≤ i then throwFault .rangeError "Invalid index"
    else
      let i := Number.toNatural64 i
      checkBounds (i < es.size)
      newArray (es.setIfInBounds i (argument args 1))

open Eval in
/-- What the functions of `Array` do. -/
def ArrayMethod.run (method : ArrayMethod) (receiver : Value) (args : Array Value) :
    Eval Value := do
  match method with
  | .make =>
    let es ← constructorElements args
    match ← constructing? receiver with
    | some id =>
      modifyObject id fun o => { o with sort := .array, elements := some es }
      pure (.object id)
    | none => newArray es
  | .isArray =>
    match argument args 0 with
    | .object id => return .boolean (← object id).isArray
    | _ => pure (.boolean false)
  | .ofItems => newArray args
  | .ofIterable =>
    let values ← sourceValues (argument args 0)
    let f := argument args 1
    if f.isUndefined then newArray values
    else
      requireCallable f "Array.from"
      newArray (← mapElements (fun i v => callback f (argument args 2) #[v, .ofNat i])
        (Elements.indexed values) #[])
  | .push | .pop | .shift | .unshift | .splice | .reverse | .fill | .copyWithin | .sort =>
    method.change receiver args
  | .forEach | .map | .filter | .anyOf | .allOf | .find | .findIndex | .findLast | .findLastIndex
  | .reduce | .reduceRight | .flatMap => method.iterate receiver args
  | .elementAt | .concat | .slice | .indexOf | .lastIndexOf | .includes | .join | .toString
  | .toLocaleString | .flat | .keys | .values | .entries | .toReversed | .toSorted | .toSpliced
  | .replaced => method.access receiver args

end GuestScript
