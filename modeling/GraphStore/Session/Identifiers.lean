import GraphStore.Session.Basic

/-!
Contract: the identifier authorities and pools of a session.

Owns opening them under names and drawing identifiers. A pool keeps drawing on the
authority that it was opened over, whatever that authority's name comes to stand for.
-/

namespace GraphStore.SessionContext

variable {μ : Type}

def authority? (session : Session μ) (name : String) : Option (Nat × IdAuthority) := do
  let number ← session.names.authorities.find? name
  return (number, ← session.authorities[number]?)

def openAuthority (context : SessionContext μ) (name : String) (sizer : BlockSizer)
    (options : IdAuthorityOptions) : Action (Session μ) Unit := do
  let authority ← IdAuthority.create context.manager sizer options
  modify fun session => { session with
    authorities := session.authorities ++ [authority]
    names := { session.names with
      authorities := session.names.authorities.insert name session.authorities.length } }

def closeAuthority (number : Nat) (authority : IdAuthority) (session : Session μ) : Session μ :=
  { session with authorities := session.authorities.set number authority.close }

def holdPool (name : String) (held : HeldPool) (session : Session μ) : Session μ :=
  { session with
    names := { session.names with pools := session.names.pools.insert name held } }

def drawIds (context : SessionContext μ) (authority : IdAuthority) :
    (count : Nat) → IdPool → StateM (Session μ) (List (Result UInt64) × IdPool)
  | 0, pool => return ([], pool)
  | count + 1, pool => do
    let (outcome, pool) ← pool.nextId authority context.manager
    match outcome with
    | .error failure => return ([.error failure], pool)
    | .ok id =>
      let (others, pool) ← drawIds context authority count pool
      return (.ok id :: others, pool)

end GraphStore.SessionContext
