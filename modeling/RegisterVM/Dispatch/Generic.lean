import RegisterVM.Dispatch.Machine

/-
  Generic dispatch: resolve a member by name on the receiver,
  check that the caller may call it, and run it. Nothing is
  remembered, so this is what every other way of calling has to
  agree with.

  Key definitions include:
    * `invokeInstance`
    * `invokeMethod`
-/

namespace RegisterVM

/- Call a method of an instance. -/
def invokeInstance
    (run : Runner)
    (i : Instance)
    (name : String)
    (args : List Value) : Action Value := do
  let some resolved ← Action.resolve i.cls name
    | Action.refuse (.notFound ((← Action.heap).className i.cls) name)
  let record := resolved.record
  let some body := record.body
    | Action.refuse
        (.abstractMember ((← Action.heap).className i.cls) name)
  Action.checkAccess record.visibility record.declaring name i.cls
  match resolved.slot with
  | none => run body (.inst i) args
  | some slot =>
    let table ← Action.slotTable i.cls
    let slotted := (table.get? slot).bind MethodRecord.body
    run (slotted.getD body) (.inst i) args

/- Call a member of any value. -/
def invokeMethod
    (run : Runner)
    (receiver : Value)
    (name : String)
    (args : List Value) : Action Value :=
  match receiver with
  | .inst i => invokeInstance run i name args
  | .cls c => do
    match ← Action.resolveStatic c name with
    | some body => run body receiver args
    | none =>
      let owner := classScopeOwner ((← Action.heap).className c)
      Action.refuse (.notFound owner name)
  | other => Action.refuse (.notFound other.typeName name)

end RegisterVM
