import Patchbay.Script.Evaluate.Pattern
/-!
The value of an expression. The parts of an expression are evaluated by the engine one level down.
-/
namespace Patchbay.Script

open Binary Text

def evaluateArguments (e : Engine) (c : Context) : List Expr → Run (List Value)
  | [] => return []
  | .spread x :: rest => do
    let items ← itemsOf e (← e.evaluate c x)
    return items ++ (← evaluateArguments e c rest)
  | x :: rest => do
    let v ← e.evaluate c x
    return v :: (← evaluateArguments e c rest)

def evaluateItems (e : Engine) (c : Context) (items : List Expr) : Run (Array (Option Property)) :=
  items.foldlM (fun all x => do
    match x with
    | .hole => return all.push none
    | .spread x =>
      return all ++ ((← itemsOf e (← e.evaluate c x)).map fun v => some (Property.plain v)).toArray
    | x => return all.push (some (.plain (← e.evaluate c x)))) #[]

def nameOfKey (k : Key) (before : String) : Run CodeUnits := do
  match k with
  | .index n => return .ofString (before ++ toString n)
  | .text s => return .ofString before ++ s
  | .symbol id =>
    let d := ((← get).symbols[id]?.join).getD default
    return .ofString (before ++ "[") ++ d ++ .ofString "]"

def defineMethod (scope : Nat) (target : Ref) (k : Key) (kind : MemberKind) (f : Function)
    (listed : Bool) : Run Unit := do
  let before := match kind with
    | .value => ""
    | .getter => "get "
    | .setter => "set "
  let r ← makeFunction scope (f.rename (← nameOfKey k before)) (some target)
  let f : Value := .object r
  match kind with
  | .value => store target k ⟨.data f true, listed, true⟩
  | .getter =>
    let setter := match (← get).ownProperty? target k with
      | some ⟨.accessor _ s, _, _⟩ => s
      | _ => .undefined
    store target k ⟨.accessor f setter, listed, true⟩
  | .setter =>
    let getter := match (← get).ownProperty? target k with
      | some ⟨.accessor g _, _, _⟩ => g
      | _ => .undefined
    store target k ⟨.accessor getter f, listed, true⟩

def copyProperties (e : Engine) (target : Ref) (v : Value) : Run Unit := do
  if v.isNullish then return
  let source ← toObject v
  for k in (← ownKeys e source) do
    if ← isListed e source k then
      create target k (← getProperty e source k)

def evaluateObject (e : Engine) (c : Context) (members : List Member) : Run Value := do
  let r ← newObject .object
  for m in members do
    match m with
    | .field _ key (some x) =>
      let k ← toKey e (← e.evaluate c key)
      create r k (← e.evaluate c x)
    | .method _ key kind f =>
      defineMethod c.scope r (← toKey e (← e.evaluate c key)) kind f true
    | .spread x => copyProperties e r (← e.evaluate c x)
    | .proto x =>
      match ← e.evaluate c x with
      | .object p => modifyObject r fun o => { o with proto := some p }
      | .null => modifyObject r fun o => { o with proto := none }
      | _ => pure ()
    | .field _ _ none | .block _ => pure ()
  return .object r

def implicitMaker (name : Name) (source : CodeUnits) (derived : Bool) : Function :=
  .mk ⟨name, if derived then .derivedConstructor else .baseConstructor, false, false, true, [], false,
    0, false, source⟩ [] []

def privateNames (members : List Member) : List Name :=
  (members.filterMap fun m =>
    match m with
    | .field _ (.privateName n) _ | .method _ (.privateName n) _ _ => some n
    | _ => none).eraseDups

def memberName (e : Engine) (c : Context) (key : Expr) : Run MemberName := do
  match key with
  | .privateName n => return .secret (← secretOf c.scope n)
  | key => return .key (← toKey e (← e.evaluate c key))

def addField (e : Engine) (c : Context) (r : Ref) (f : ClassField) : Run Unit := do
  let v ← match f.value with
    | some x => e.evaluate c x
    | none => pure .undefined
  match f.name with
  | .key k => expectDone (← defineProperty e r k (.ofProperty (.plain v)))
  | .secret id => addSecret r id (.plain v)

/-- What a class has gathered from its members: what it gives to its instances, and what it does for
itself once all its methods are made. -/
structure ClassMembers where
  secrets : Secrets := []
  fields : List ClassField := []
  ownSecrets : Secrets := []
  own : List (ClassField ⊕ Function) := []

def evaluateMember (e : Engine) (c : Context) (r p : Ref) (all : ClassMembers) (m : Member) :
    Run ClassMembers := do
  match m with
  | .field isOwn key value =>
    let f : ClassField := ⟨← memberName e c key, value⟩
    return if isOwn then { all with own := all.own ++ [.inl f] } else { all with fields := all.fields ++ [f] }
  | .method isOwn key kind f =>
    let home := if isOwn then r else p
    match ← memberName e c key with
    | .key k =>
      defineMethod c.scope home k kind f false
      return all
    | .secret id =>
      let name ← nameOfKey (.symbol id) ""
      let method : Value := .object (← makeFunction c.scope (f.rename name) (some home))
      return if isOwn then { all with ownSecrets := all.ownSecrets.join id kind method }
        else { all with secrets := all.secrets.join id kind method }
  | .block f => return { all with own := all.own ++ [.inr f] }
  | .spread _ | .proto _ => return all

/-- What a class extends: the object that it inherits from, and the one that its instances do. -/
def evaluateHeritage (e : Engine) (c : Context) (heritage : Option Expr) :
    Run (Option Ref × Option Ref) := do
  match heritage with
  | none => return (some Proto.function.ref, some Proto.object.ref)
  | some x =>
    match ← e.evaluate c x with
    | .null => return (some Proto.function.ref, none)
    | v =>
      if ← isMaker v then
        match ← getValue e v (.named "prototype") with
        | .object p => return (v.ref?, some p)
        | .null => return (v.ref?, none)
        | _ => throwType "parent prototype must be an object or null"
      else throwType "parent class must be constructor"

def evaluateClass (e : Engine) (c : Context) : Class → Run Value
  | .mk name source heritage maker members => do
    let secrets ← (privateNames members).mapM fun n => do
      let id ← newSymbol (some (secretName n))
      return (secretName n, (⟨some (.symbol id), .constant⟩ : Binding))
    let itself := if name.isEmpty then [] else [(name, (⟨none, .constant⟩ : Binding))]
    let scope ← newScope c.scope (itself ++ secrets)
    let inner : Context := { c with scope := scope, strict := true }
    let (parent, parentProto) ← evaluateHeritage e inner heritage
    let p ← allocate { proto := parentProto }
    let tree := (maker.getD (implicitMaker name source heritage.isSome))
    let r ← makeFunction scope (.mk { tree.signature with name := name, source := source } tree.params
      tree.body) (some p)
    modifyObject r fun o => { o with proto := parent }
    modifyObject r fun o => o.insert (.named "prototype") (.fixed (.object p))
    modifyObject p fun o => o.insert (.named "constructor") (.hidden (.object r))
    let all ← members.foldlM (evaluateMember e inner r p) {}
    modifyObject r fun o =>
      match o.payload with
      | .closure cl =>
        let cl := { cl with secrets := all.secrets, fields := all.fields, implicit := maker.isNone }
        { o with payload := .closure cl }
      | _ => o
    if !name.isEmpty then bindIn scope name ⟨some (.object r), .constant⟩
    all.ownSecrets.forM fun (id, p) => addSecret r id p
    let fieldScope ← newScope scope [(thisName, ⟨some (.object r), .constant⟩),
      (homeName, ⟨some (.object r), .constant⟩)]
    for member in all.own do
      match member with
      | .inl f => addField e { inner with scope := fieldScope, top := false } r f
      | .inr body =>
        let _ ← e.call (.object (← makeFunction scope body (some r))) (.object r) []
    return .object r

def superBase (e : Engine) (scope : Nat) : Run Value := do
  match ← ownName? scope homeName with
  | some (.object home) =>
    match ← prototypeOf e home with
    | some p => return .object p
    | none => return .null
  | _ => throwNew .syntaxFault "'super' is only valid in a method"

/-- The value of an access or call and the value it was found on, or nothing when a chain gave up. -/
def access (e : Engine) (c : Context) : Expr → Run (Option (Value × Value))
  | .optional o => do
    match ← access e c o with
    | some (v, this) => return if v.isNullish then none else some (v, this)
    | none => return none
  | .member o k place => do
    match ← access e c o with
    | some (v, _) =>
      reach place
      return some (← getValue e v (.ofUnits k), v)
    | none => return none
  | .element o k place => do
    match ← access e c o with
    | some (v, _) =>
      let key ← e.evaluate c k
      reach place
      return some (← getValue e v (← toKey e key), v)
    | none => return none
  | .privateMember o n place => do
    match ← access e c o with
    | some (v, _) =>
      reach place
      return some (← readSecret e c.scope n v, v)
    | none => return none
  | .call f args place => do
    match ← access e c f with
    | some (f, this) =>
      let args ← evaluateArguments e c args
      reach place
      return some (← e.call f this args, .undefined)
    | none => return none
  | .superMember k place => do
    let this ← readThis c.scope
    let key ← toKey e (← e.evaluate c k)
    reach place
    match ← superBase e c.scope with
    | .object p => return some (← getFrom e chainLimit p key this, this)
    | v => return some (← getValue e v key, this)
  | x => return some (← e.evaluate c x, .undefined)

def fillFields (e : Engine) (maker : Ref) (this : Value) : Run Unit := do
  match ← payload maker, this with
  | .closure cl, .object r =>
    cl.secrets.forM fun (id, p) => addSecret r id p
    if cl.fields.isEmpty then return
    let scope ← newScope cl.scope ([(thisName, ⟨some this, .constant⟩)] ++
      (cl.home.map fun h => (homeName, ⟨some (.object h), .constant⟩)).toList)
    cl.fields.forM (addField e ⟨scope, true, false⟩ r)
  | _, _ => pure ()

def superCall (e : Engine) (c : Context) (args : List Expr) (place : Place) : Run Value := do
  match ← ownName? c.scope calleeName with
  | some (.object callee) =>
    let parent ← prototypeOf e callee
    let args ← evaluateArguments e c args
    reach place
    let target := (← ownName? c.scope targetName).getD .undefined
    let this ← e.construct ((parent.map Value.object).getD .null) args target
    match ← lookupScope c.scope thisName with
    | some (i, ⟨none, _⟩) => bindIn i thisName ⟨some this, .constant⟩
    | _ => throwReference "super() called twice"
    fillFields e callee this
    return this
  | _ => throwNew .syntaxFault "'super' is only valid in a method"

/-- What an assignment changes: a variable, a property of a value, or what it has under a private name. -/
inductive Referent
  | name (n : Name) (place : Place)
  | secret (base : Value) (n : Name) (place : Place)
  | property (base : Value) (key : Value) (place : Place)

def resolve (e : Engine) (c : Context) (target : Expr) : Run Referent := do
  match target with
  | .name n place => return .name n place
  | .member o k place => return .property (← e.evaluate c o) (.string k) place
  | .element o k place =>
    let base ← e.evaluate c o
    return .property base (← e.evaluate c k) place
  | .privateMember o n place => return .secret (← e.evaluate c o) n place
  | .superMember k place =>
    let this ← readThis c.scope
    return .property this (← e.evaluate c k) place
  | _ => throwNew .syntaxFault "invalid assignment left-hand side"

def Referent.read (e : Engine) (c : Context) (p : Referent) : Run Value := do
  match p with
  | name n place =>
    reach place
    readName e c.scope n
  | secret base n place =>
    reach place
    readSecret e c.scope n base
  | property base key place =>
    reach place
    getValue e base (← toKey e key)

def Referent.write (e : Engine) (c : Context) (p : Referent) (v : Value) : Run Unit := do
  match p with
  | name n place =>
    reach place
    writeName e c n v
  | secret base n place =>
    reach place
    writeSecret e c.scope n base v
  | property base key place =>
    reach place
    putValue e c.strict base (← toKey e key) v

def evaluateAssign (e : Engine) (c : Context) (target : Pattern) (x : Expr) : Run Value := do
  match target with
  | .leaf t =>
    let p ← resolve e c t
    let v ← e.evaluate c x
    p.write e c v
    return v
  | p =>
    let v ← e.evaluate c x
    bindPattern e c none p v
    return v

def evaluateAssignOp (e : Engine) (c : Context) (op : BinaryOp) (target x : Expr) : Run Value := do
  let p ← resolve e c target
  let old ← p.read e c
  let v ← binaryOp e op old (← e.evaluate c x)
  p.write e c v
  return v

def goesOn (op : LogicalOp) (v : Value) : Bool :=
  match op with
  | .and => v.truthy
  | .or => !v.truthy
  | .coalesce => v.isNullish

def evaluateAssignLogical (e : Engine) (c : Context) (op : LogicalOp) (target x : Expr) :
    Run Value := do
  let p ← resolve e c target
  let old ← p.read e c
  if goesOn op old then
    let v ← e.evaluate c x
    p.write e c v
    return v
  else return old

def evaluateUpdate (e : Engine) (c : Context) (increment before : Bool) (target : Expr) :
    Run Value := do
  let p ← resolve e c target
  let old ← toNumeric e (← p.read e c)
  let v := step increment old
  p.write e c v
  return if before then v else old

def evaluateDelete (e : Engine) (c : Context) (x : Expr) : Run Value := do
  let remove (base : Value) (key : Value) : Run Value := do
    let r ← toObject base
    let gone ← deleteProperty e r (← toKey e key)
    if !gone && c.strict then throwType "could not delete property" else return .bool gone
  match x with
  | .member o k place =>
    let base ← e.evaluate c o
    reach place
    remove base (.string k)
  | .element o k place =>
    let base ← e.evaluate c o
    let key ← e.evaluate c k
    reach place
    remove base key
  | .name n _ =>
    match ← lookupScope c.scope n with
    | some _ => return .bool false
    | none => return .bool (← deleteProperty e Proto.global.ref (.ofUnits n))
  | x =>
    let _ ← e.evaluate c x
    return .bool true

def evaluateTemplate (e : Engine) (c : Context) : List CodeUnits → List Expr → CodeUnits → Run CodeUnits
  | [], _, s => return s
  | text :: _, [], s => return s ++ text
  | text :: texts, x :: parts, s => do
    let part ← toText e (← e.evaluate c x)
    evaluateTemplate e c texts parts (s ++ text ++ part)

def evaluateTagged (e : Engine) (c : Context) (tag : Expr) (cooked : List (Option CodeUnits))
    (raw : List CodeUnits) (parts : List Expr) (place : Place) : Run Value := do
  match ← access e c tag with
  | some (f, this) =>
    let texts ← newList (cooked.map fun text => (text.map Value.string).getD .undefined)
    let raws ← newList (raw.map .string)
    modifyObject texts fun o => o.insert (.named "raw") (.hidden (.object raws))
    let args ← parts.mapM fun x => e.evaluate c x
    reach place
    e.call f this (.object texts :: args)
  | none => return .undefined

/-- Values that a generator gave so far are kept as the latest completion of its call. -/
def evaluateYield (e : Engine) (c : Context) (x : Option Expr) (delegate : Bool) : Run Value := do
  let v ← match x with
    | some x => e.evaluate c x
    | none => pure .undefined
  let items ← if delegate then itemsOf e v else pure [v]
  match ← ownName? c.scope (.ofString "%yields") with
  | some (.object r) =>
    match ← payload r with
    | .list all length resizable =>
      setPayload r (.list (all ++ (items.map fun v => some (.plain v)).toArray)
        (length + items.length) resizable)
    | _ => pure ()
  | _ => pure ()
  return .undefined

def evaluate (e : Engine) (c : Context) (x : Expr) : Run Value := do
  match x with
  | .undefined | .hole => return .undefined
  | .null => return .null
  | .bool b => return .bool b
  | .number d => return .number d
  | .bigint n => return .bigint n
  | .string s => return .string s
  | .template texts parts => claimText (← evaluateTemplate e c texts parts default)
  | .tagged tag cooked raw parts place => evaluateTagged e c tag cooked raw parts place
  | .regexp source flags => return .object (← allocate (regexpObject Proto.regexp.ref source flags))
  | .name n place =>
    reach place
    readName e c.scope n
  | .privateName n => return .symbol (← secretOf c.scope n)
  | .this => readThis c.scope
  | .newTarget => return (← ownName? c.scope targetName).getD .undefined
  | .list items =>
    let all ← evaluateItems e c items
    return .object (← newObject .list (.list all all.size true))
  | .spread x => e.evaluate c x
  | .object members => evaluateObject e c members
  | .function f => functionValue c.scope f
  | .classExpr k => evaluateClass e c k
  | .unary op x => unaryOp e op (← e.evaluate c x)
  | .typeOf x =>
    match x with
    | .name n place =>
      reach place
      return .ofString (← typeName ((← readName? e c.scope n).getD .undefined))
    | x => return .ofString (← typeName (← e.evaluate c x))
  | .delete x => evaluateDelete e c x
  | .update increment before target => evaluateUpdate e c increment before target
  | .binary op a b =>
    let a ← e.evaluate c a
    let b ← e.evaluate c b
    binaryOp e op a b
  | .logical op a b =>
    let a ← e.evaluate c a
    if goesOn op a then e.evaluate c b else return a
  | .assign target x => evaluateAssign e c target x
  | .assignOp op target x => evaluateAssignOp e c op target x
  | .assignLogical op target x => evaluateAssignLogical e c op target x
  | .conditional test yes no =>
    if (← e.evaluate c test).truthy then e.evaluate c yes else e.evaluate c no
  | .comma a b =>
    let _ ← e.evaluate c a
    e.evaluate c b
  | .privateIn n x =>
    let id ← secretOf c.scope n
    match ← e.evaluate c x with
    | .object r => return .bool (← hasSecret r id)
    | _ => throwType "invalid 'in' operand"
  | .member .. | .element .. | .privateMember .. | .superMember .. | .call .. =>
    return ((← access e c x).map Prod.fst).getD .undefined
  | .chain x => return ((← access e c x).map Prod.fst).getD .undefined
  | .optional x => e.evaluate c x
  | .superCall args place => superCall e c args place
  | .new callee args place =>
    let f ← e.evaluate c callee
    let args ← evaluateArguments e c args
    reach place
    e.construct f args f
  | .importCall x =>
    -- The module would be loaded behind the script, so what stands for it stays unsettled.
    let _ ← e.evaluate c x
    return .object (← newObject .promise .promise)
  | .yield x delegate => evaluateYield e c x delegate
  | .await x => e.evaluate c x

end Patchbay.Script
