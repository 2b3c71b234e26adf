import Mathlib.Data.Rat.Floor
import RateEngine.Lib.BlockTariff
import RateEngine.RtData

/-!
# Pricing and maximum duration

The two tier walks of `calc_functions.c`: `calc_cprice_2` prices a number of seconds, `calc_maxsec`
turns a credit limit into seconds.  Each loop carries its running totals in a record.  The arrays
end with a row whose `pos` is `0`; a list that ends stands for that row.
-/

namespace RateEngine

open BlockTariff (ceilDiv)

/-! ## `calc_cprice_2` -/

/-- The variables that the loop of `calc_cprice_2` carries. -/
structure CpriceTotals where
  checksec : ℤ
  cprice : ℚ := 0
  billsec : ℤ := 0
deriving DecidableEq, Repr

/-- Charge `units` units of the tier. -/
def CpriceTotals.charge (s : CpriceTotals) (tr : CalcFunction) (units : ℤ) : CpriceTotals :=
  { checksec := s.checksec - units * tr.delta
    cprice := s.cprice + units * tr.fee
    billsec := s.billsec + units * tr.delta }

/-- The loop of `calc_cprice_2`. -/
def calcCprice2Loop : List CalcFunction → CpriceTotals → CpriceTotals
  | [], s => s
  | tr :: rest, s =>
      if tr.pos = 0 then s
      else
        let units := ceilDiv s.checksec tr.delta
        if tr.iterations = 0 then s.charge tr units
        else
          let s' := if tr.iterations < units then s.charge tr tr.iterations else s.charge tr units
          if units = 1 then s' else calcCprice2Loop rest s'

/-- The totals of `calc_cprice_2` for a call of `billsec` seconds. -/
def calcCprice2Totals (tr : List CalcFunction) (billsec : ℤ) : CpriceTotals :=
  calcCprice2Loop tr { checksec := billsec }

/-- `calc_cprice_2`: return code and updated record. -/
def calcCprice2 (rtp : Racc) : ℤ × Racc :=
  match rtp.bplan.calcFuncs with
  | none => (-1, rtp)
  | some tr =>
      let totals := calcCprice2Totals tr rtp.pre.billsec
      let pre := { rtp.pre with cprice := totals.cprice, billsec := totals.billsec }
      (if totals.checksec ≤ 0 then 0 else -1, { rtp with pre })

/-! ## `append_free_billsec` -/

/-- `append_free_billsec`: mark a call inside the free allowance by negating its price; `1` asks
for a split at the end of the allowance. -/
def appendFreeBillsec (pre : Rating) : ℤ × Rating :=
  if pre.freeBillsecLimit ≠ 0 then
    let freeBillsec := pre.freeBillsecLimit - pre.freeBillsecSum
    if 0 < freeBillsec then
      if freeBillsec < pre.billsec then (1, pre)
      else if pre.cprice ≠ 0 then (0, { pre with cprice := pre.cprice * (-1) })
      else (0, pre)
    else (0, pre)
  else (0, pre)

/-- `calc_cprice_group`. -/
def calcCpriceGroup (rtp : Racc) : ℤ × Racc :=
  match calcCprice2 rtp with
  | (ret, rtp) =>
      if ret = -1 then (-1, rtp)
      else
        let (ret, pre) := appendFreeBillsec rtp.pre
        (ret, { rtp with pre })

/-! ## `calc_maxsec` -/

/-- The variables that the loop of `calc_maxsec` carries. -/
structure MaxsecTotals where
  units : ℤ := 0
  maxsec : ℤ := 0
  limit : ℚ
deriving DecidableEq, Repr

/-- The units of a tier that `limit` pays for; a tier without a fee counts as one unit. -/
def MaxsecTotals.tierUnits (s : MaxsecTotals) (tr : CalcFunction) : ℤ :=
  if tr.fee = 0 then 1
  else if 0 < tr.fee then ⌊s.limit / tr.fee⌋
  else s.units

/-- The loop of `calc_maxsec`. -/
def calcMaxsecLoop (freeBillsec : ℤ) : List CalcFunction → MaxsecTotals → MaxsecTotals
  | [], s => s
  | tr :: rest, s =>
      if tr.pos = 0 then s
      else
        let maxsec := if 0 < freeBillsec ∧ s.maxsec < tr.delta then 0 else s.maxsec
        if s.limit ≤ 0 then { s with maxsec }
        else
          let units := s.tierUnits tr
          if tr.iterations = 0 then { s with units, maxsec := maxsec + units * tr.delta }
          else
            let used := if tr.iterations < units then tr.iterations else units
            calcMaxsecLoop freeBillsec rest
              { units
                maxsec := maxsec + used * tr.delta
                limit := s.limit - used * tr.fee }

/-- `call_maxsec_limit <= maxsec` on an unsigned left operand: a negative `maxsec` converts to a
number above every limit. -/
def reachesMaxsecLimit (callMaxsecLimit : ℕ) (maxsec : ℤ) : Bool :=
  callMaxsecLimit ≤ maxsec || maxsec < 0

/-- The seconds that `calc_maxsec` stores for a tariff, a limit and the free seconds that remain. -/
def calcMaxsecValue (callMaxsecLimit : ℕ) (tr : List CalcFunction) (limit : ℚ)
    (freeBillsec : ℤ) : ℤ :=
  let maxsec := if 0 < freeBillsec then freeBillsec else 0
  if 0 < freeBillsec ∧ reachesMaxsecLimit callMaxsecLimit maxsec then callMaxsecLimit
  else
    let totals := calcMaxsecLoop freeBillsec tr { maxsec, limit }
    if reachesMaxsecLimit callMaxsecLimit totals.maxsec then callMaxsecLimit else totals.maxsec

/-- `calc_maxsec`. -/
def calcMaxsec (callMaxsecLimit : ℕ) (rtp : Racc) : Racc :=
  match rtp.bplan.calcFuncs with
  | none => rtp
  | some tr =>
      let freeBillsec := rtp.pre.freeBillsecLimit - rtp.pre.freeBillsecSum
      let maxsec := calcMaxsecValue callMaxsecLimit tr rtp.pre.limit freeBillsec
      { rtp with pre := { rtp.pre with maxsec } }

end RateEngine
