import LeYiDai.Foundation.Values

/-! MyBankViewController: the list of the customer's bank cards. A tap on a row posts the row's card
    under `Bank_Model`, which every live loan and repayment screen observes, and pops the list. -/

namespace LeYiDai

structure BankDetialModel where
  bankcardName : Option NSString
  bankcardNo : Option NSString
  cardBankid : Option NSString
  cardBankname : Option NSString
  deriving DecidableEq

/-- `name  last four digits`, as the card buttons show it. -/
def cardTitle (name : Option NSString) (bankcardNo : Option NSString) : Option NSString :=
  (lastFour bankcardNo).map fun strCar => fmtStr name ++ ns "  " ++ fmtStr strCar

/-- The last four digits can be cut off a card number: it is missing or has four units. -/
def Sliceable (bankcardNo : Option NSString) : Prop := ∀ no ∈ bankcardNo, 4 ≤ no.length

theorem cardTitle_isSome_iff {name bankcardNo : Option NSString} :
    (cardTitle name bankcardNo).isSome ↔ Sliceable bankcardNo := by
  cases bankcardNo with
  | none => simp [cardTitle, lastFour, Sliceable]
  | some no => simp [cardTitle, lastFour, Sliceable, substringFromIndex_isSome_iff]

namespace MyBankViewController

/-- `modelArray` after a reply with a list of cards; an entry that is not an object raises. -/
def useQuryBankInsert (bankList : Option (List (Option BankDetialModel))) :
    Option (List BankDetialModel) :=
  (bankList.getD []).mapM id

/-- `tableView:didSelectRowAtIndexPath:`: the card posted under `Bank_Model`. -/
def didSelectRow (modelArray : List BankDetialModel) (row : ℕ) : Option BankDetialModel :=
  modelArray[row]?

end MyBankViewController

end LeYiDai
