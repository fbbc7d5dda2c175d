import EpOraLibrary.Model.World

/-!
# EpOraLibrary — dates

`epDateTime.h`: a `DateTime` is set from an `OCIDate` and set into one.
-/

namespace Epol

/-- `MonthsEnum`. -/
inductive MonthsEnum
  | jan | feb | mar | apr | may | jun | jul | aug | sep | oct | nov | dec
deriving DecidableEq

/-- The number of a month: `JAN` is 1. -/
def MonthsEnum.code : MonthsEnum → Nat
  | .jan => 1
  | .feb => 2
  | .mar => 3
  | .apr => 4
  | .may => 5
  | .jun => 6
  | .jul => 7
  | .aug => 8
  | .sep => 9
  | .oct => 10
  | .nov => 11
  | .dec => 12

/-- The cast of a number to `MonthsEnum`; `none` where no month has it, and the
value of the cast is not specified. -/
def MonthsEnum.ofCode : Nat → Option MonthsEnum
  | 1 => some .jan
  | 2 => some .feb
  | 3 => some .mar
  | 4 => some .apr
  | 5 => some .may
  | 6 => some .jun
  | 7 => some .jul
  | 8 => some .aug
  | 9 => some .sep
  | 10 => some .oct
  | 11 => some .nov
  | 12 => some .dec
  | _ => none

theorem MonthsEnum.ofCode_code (month : MonthsEnum) : ofCode month.code = some month := by
  cases month <;> rfl

theorem MonthsEnum.code_lt (month : MonthsEnum) : month.code < 2 ^ 8 := by
  cases month <;> decide

structure DateTime where
  m_year   : Int16
  m_month  : MonthsEnum
  m_day    : UInt8
  m_hour   : UInt8
  m_minute : UInt8
  m_second : UInt8
deriving DecidableEq

/-- `DateTime::operator= (const OCIDate&)`. -/
def DateTime.ofOciDate (ociDate : OciDate) : Option DateTime :=
  (MonthsEnum.ofCode ociDate.mm).map fun month => {
    m_year := Int16.ofInt ociDate.yyyy
    m_month := month
    m_day := UInt8.ofNat ociDate.dd
    m_hour := UInt8.ofNat ociDate.hh
    m_minute := UInt8.ofNat ociDate.mi
    m_second := UInt8.ofNat ociDate.ss }

/-- `DateTime::SetOciDate`. -/
def DateTime.setOciDate (dateTime : DateTime) : OciDate where
  yyyy := dateTime.m_year.toInt
  mm := dateTime.m_month.code
  dd := dateTime.m_day.toNat
  hh := dateTime.m_hour.toNat
  mi := dateTime.m_minute.toNat
  ss := dateTime.m_second.toNat

/-- **A `DateTime` is read back** from the `OCIDate` it was set into. -/
theorem DateTime.ofOciDate_setOciDate (dateTime : DateTime) :
    ofOciDate dateTime.setOciDate = some dateTime := by
  simp [ofOciDate, setOciDate, MonthsEnum.ofCode_code]

end Epol
