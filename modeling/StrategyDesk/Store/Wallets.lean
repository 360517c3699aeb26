import StrategyDesk.Store.Session

set_option autoImplicit false

namespace StrategyDesk

def Store.isTaken (s : Store) (address : Option String) : Bool :=
  address.isSome && s.wallets.any fun w => w.safeAddress == address

def Store.newWallet (s : Store) (status safeAddress privateKey : Option String) :
    Except Crash Wallet :=
  if s.isTaken safeAddress then .error .brokenRow
  else .ok ⟨s.nextWalletId, status.getD Wallet.pending, safeAddress, privateKey.getD ""⟩

namespace Work

variable {σ : Type}

def addWallet (status safeAddress privateKey : Option String) : Work σ Int := do
  let tables ← query fun s => s
  let w ← save (tables.newWallet status safeAddress privateKey) fun w s => s.addWallet w
  return w.id

def setWalletStatus (id : Int) (status : Option String) : Work σ Unit := do
  if Desk.isStorable id then
    match ← query fun s => s.wallet? id with
    | none => return ()
    | some _ =>
      stage fun s =>
        match status with
        | some status => .ok (s.onWallet id fun w => { w with status })
        | none => .error .brokenRow
  else throw (.crash .tooLarge)

end Work

end StrategyDesk
