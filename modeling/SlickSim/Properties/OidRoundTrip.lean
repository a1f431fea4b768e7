import SlickSim.Ledger.Naming
import SlickSim.OrderBook.Reference
import SlickSim.Venues.HyperliquidRestGateway

/-!
# Order numbers of Hyperliquid clients

The exchange names an order by a uuid of thirty-six characters. The number a client is
told is what the uuid begins with, if it begins with digits at all, and comes back as a
text of at most twenty characters: it names no order.
-/

set_option autoImplicit false

namespace SlickSim

open HyperliquidRestOrderGateway

/-- Every order has a name as long as a uuid. -/
def Terms.longNames : Terms :=
  { Terms.all with accept := fun _ _ order => order.orderId.bytes.length = 36 }

namespace Exchange

variable {β : Type} [OrderBookL3 β] {env : Environment} {config : SymbolConfig}
  {allowed : Exchange β → Input → Prop} {exchange : Exchange β} {ref : Nat}

theorem Reachable.orderId_length (reachable : Reachable env config allowed exchange)
    (live : exchange.ledger.Registered ref) : (exchange.matching.order ref).orderId.bytes.length = 36 := by
  have inv := reachable.represents.1
  have owned := inv.indexed.registered_owned live
  obtain ⟨life, lives, past⟩ := reachable.lived .longNames (fun exchange input _ _ _ => by
    refine requestLicence_of_terms (fun _ _ => trivial) (fun _ => trivial) (fun _ _ => trivial)
      (fun _ => trivial) ?_ (fun _ _ _ _ _ _ => ⟨trivial, fun _ _ => trivial⟩) (fun _ _ _ _ _ _ => trivial)
    rintro header msg rfl
    show (exchange.newOrder env config header msg).orderId.bytes.length = 36
    rw [newOrder_orderId]
    exact env.uuid_length _) owned.1
  have isAlive := lives.of_registered inv live (by rintro ⟨⟩)
  subst isAlive
  exact @Life.bears_of_run .longNames (fun name => name.bytes.length = 36) (fun _ _ _ permitted => permitted)
    _ past

/-- The text of a number names no order. -/
theorem Reachable.findOrderByOrderId_decimalText (reachable : Reachable env config allowed exchange)
    (oid : Int64) : exchange.book.findOrderByOrderId (Name.copyWireField (decimalText oid)) = none := by
  cases found : exchange.book.findOrderByOrderId (Name.copyWireField (decimalText oid)) with
  | none => rfl
  | some ref =>
      obtain ⟨-, live, name⟩ := reachable.represents.1.indexed.byOrder_iff.mp
        (show exchange.ledger.byOrder _ = some ref from found)
      have long := reachable.orderId_length live
      have named : (exchange.matching.order ref).orderId = Name.copyWireField (decimalText oid) := name
      rw [named] at long
      have short := (Name.copyWireField_length (decimalText oid)).trans (decimalText_length oid)
      omega

/-- A cancel by number reaches the order whose client order id its slot still holds. -/
theorem Reachable.selectOrder_cancelMessage (reachable : Reachable env config allowed exchange)
    (slot : CancelOrderMessage) (userId : List UInt8) (oid : Int64) :
    let msg := cancelMessage slot userId oid
    selectOrder exchange.book msg.clientOrderId msg.orderId =
      if slot.clientOrderId.isEmpty then none else exchange.book.findOrderByClientOrderId slot.clientOrderId := by
  intro msg
  unfold selectOrder
  show (if slot.clientOrderId.isEmpty = false then _ else exchange.book.findOrderByOrderId
    (Name.copyWireField (decimalText oid))) = _
  rw [reachable.findOrderByOrderId_decimalText oid]
  cases slot.clientOrderId.isEmpty <;> rfl

theorem Reachable.selectOrder_modifyMessage (reachable : Reachable env config allowed exchange)
    (slot : ModifyOrderMessage) (userId : List UInt8) (oid : Int64) (newPrice newQty : Int) :
    let msg := modifyMessage slot userId oid newPrice newQty
    selectOrder exchange.book msg.clientOrderId msg.orderId =
      if slot.clientOrderId.isEmpty then none else exchange.book.findOrderByClientOrderId slot.clientOrderId := by
  intro msg
  unfold selectOrder
  show (if slot.clientOrderId.isEmpty = false then _ else exchange.book.findOrderByOrderId
    (Name.copyWireField (decimalText oid))) = _
  rw [reachable.findOrderByOrderId_decimalText oid]
  cases slot.clientOrderId.isEmpty <;> rfl

/-- A cancel by client order id takes its order out, whatever its slot still holds. -/
theorem Reachable.cancelByCloid_cancels (reachable : Reachable env config allowed exchange)
    (live : exchange.ledger.Registered ref) {header : RequestHeader} (listed : header.symbol = config.symbol)
    (slot : CancelOrderMessage) (userId : List UInt8) {cloid : List UInt8}
    (named : (Name.copyWireField cloid).isEmpty = false)
    (own : (exchange.matching.order ref).clientOrderId = Name.copyWireField cloid) :
    (exchange.handleCancelOrderRequest env config header (cancelByCloidMessage slot userId cloid)).ledger =
      exchange.cancelledLedger env header ref := by
  have inv := reachable.represents.1
  have found : exchange.ledger.byClient (Name.copyWireField cloid) = some ref :=
    inv.indexed.byClient_iff.mpr ⟨named, live, own⟩
  exact (@handleCancelOrderRequest_cancels _ _ exchange env config Permit.all header ref
    (cancelByCloidMessage slot userId cloid) listed ((if_pos named).trans found) inv trivial).1

/-! ## Actions -/

theorem Reachable.orderId_named (reachable : Reachable env config allowed exchange)
    (live : exchange.ledger.Registered ref) : (exchange.matching.order ref).orderId.isEmpty = false := by
  have long := reachable.orderId_length live
  unfold FixedString.isEmpty
  cases bytes : (exchange.matching.order ref).orderId.bytes with
  | nil => rw [bytes] at long; cases long
  | cons => rfl

theorem statusOf_eq {response : OrderResponse} (named : response.orderId.isEmpty = false)
    (accepted : response.orderStatus ≠ .rejected) :
    statusOf response = (stoll response.orderId.bytes).map .resting := by
  unfold statusOf
  rw [if_neg accepted, if_neg (by rw [named]; rintro ⟨⟩)]

/-- An action is answered only if no order of it is lost on the way. -/
theorem processOrderAction_isSome (orders : List (PlaceOrder × List OrderResponse)) :
    (processOrderAction orders).isSome = true ↔
      ∀ placed ∈ orders, ∀ response ∈ placed.2.find? (answersOrder placed.1), (statusOf response).isSome = true := by
  unfold processOrderAction
  induction orders with
  | nil => exact iff_of_true rfl nofun
  | cons placed rest ih =>
      rw [List.forall_mem_cons, ← ih, List.mapM_cons]
      generalize (List.mapM _ rest : Option (List OrderStatusEntry)) = answered
      cases heard : placed.2.find? (answersOrder placed.1) with
      | none => cases answered <;> simp [heard]
      | some response => cases said : statusOf response <;> cases answered <;> simp [heard, said]

/-- One order whose uuid begins with no number costs the whole action its answer: an action whose
orders were accepted is answered exactly if each uuid begins with one. -/
theorem Reachable.processOrderAction_iff (reachable : Reachable env config allowed exchange)
    {orders : List (PlaceOrder × List OrderResponse)}
    (accepted : ∀ placed ∈ orders, ∀ response ∈ placed.2.find? (answersOrder placed.1),
      response.orderStatus ≠ .rejected ∧ ∃ ref, exchange.ledger.Registered ref ∧
        response.orderId = (exchange.matching.order ref).orderId) :
    (processOrderAction orders).isSome = true ↔
      ∀ placed ∈ orders, ∀ response ∈ placed.2.find? (answersOrder placed.1),
        (stoll response.orderId.bytes).isSome = true := by
  rw [processOrderAction_isSome]
  refine forall₂_congr fun placed member => forall₂_congr fun response heard => ?_
  obtain ⟨fine, ref, live, same⟩ := accepted placed member response heard
  have named : response.orderId.isEmpty = false := by
    rw [same]
    exact reachable.orderId_named live
  rw [statusOf_eq named fine, Option.isSome_map]

/-! ## Numbers -/

/-- A number that serves as the name of a live order, for requests written over two slots. -/
structure Numbers (exchange : Exchange β) (cancelSlot : CancelOrderMessage) (modifySlot : ModifyOrderMessage)
    (ref : Nat) (oid : Int64) : Prop where
  /-- Whatever report of the order the client is answered with. -/
  answered : ∀ response : OrderResponse, response.orderId = (exchange.matching.order ref).orderId →
    response.orderStatus ≠ .rejected → statusOf response = some (.resting oid)
  distinct : ∀ other, exchange.ledger.Registered other → other ≠ ref →
    stoll (exchange.matching.order other).orderId.bytes ≠ some oid
  cancels : ∀ userId : List UInt8,
    let msg := cancelMessage cancelSlot userId oid
    selectOrder exchange.book msg.clientOrderId msg.orderId = some ref
  amends : ∀ (userId : List UInt8) (newPrice newQty : Int),
    let msg := modifyMessage modifySlot userId oid newPrice newQty
    selectOrder exchange.book msg.clientOrderId msg.orderId = some ref

/-- The client order id a slot still holds is that of the order. -/
def StillNames (exchange : Exchange β) (clientOrderId : Name) (ref : Nat) : Prop :=
  clientOrderId.isEmpty = false ∧ exchange.book.findOrderByClientOrderId clientOrderId = some ref

instance (exchange : Exchange β) (clientOrderId : Name) (ref : Nat) :
    Decidable (exchange.StillNames clientOrderId ref) :=
  inferInstanceAs (Decidable (_ ∧ _))

omit [OrderBookL3 β] in
private theorem stillNames_iff {clientOrderId : Name} :
    (if clientOrderId.isEmpty then none else exchange.book.findOrderByClientOrderId clientOrderId) = some ref ↔
      exchange.StillNames clientOrderId ref := by
  unfold StillNames
  cases clientOrderId.isEmpty <;> simp

/-- A uuid that begins with a letter, f47ac10b-58cc-4372-a567-0e02b2c3d479. -/
def letteredUuid : Name where
  bytes := [
      102, 52, 55, 97, 99, 49, 48, 98, 45, 53, 56, 99,
      99, 45, 52, 51, 55, 50, 45, 97, 53, 54, 55, 45,
      48, 101, 48, 50, 98, 50, 99, 51, 100, 52, 55, 57]
  fits := by decide
  terminated := by decide

def letteredEnvironment : Environment :=
  { Environment.counted (fun _ => default) with
    uuid := fun _ => letteredUuid
    uuid_length := fun _ => rfl }

end Exchange

end SlickSim
