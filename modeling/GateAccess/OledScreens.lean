import GateAccess.Decimals
import GateAccess.OledFb
import GateAccess.Ui

namespace GateAccess

def strDenied : List UInt8 := ascii "SENHA INVALIDA"
def strTry : List UInt8 := ascii "TENTATIVA"
def strNotYet1 : List UInt8 := ascii "AINDA NAO"
def strNotYet2 : List UInt8 := ascii "VALIDA"
def strExpired1 : List UInt8 := ascii "SENHA"
def strExpired2 : List UInt8 := ascii "EXPIRADA"
def strLocked : List UInt8 := ascii "BLOQUEADO"
def strNoClock1 : List UInt8 := ascii "SEM RELOGIO"
def strNoClock2 : List UInt8 := ascii "AGUARDE"
def strOk : List UInt8 := ascii "OK"

def oledBarX : Int := 4
def oledBarW : Int := 120
def oledBarH : Int := 10
def oledBarInnerW : Nat := 116

/-- `%02u`. -/
def twoDigits (n : Nat) : List UInt8 := (decimal n).leftpad 2 48

/-- The text of the six byte buffer, without its terminator. -/
def oledFmtMmss (seconds : UInt32) : List UInt8 :=
  let s := min seconds.toNat (99 * 60 + 59)
  (twoDigits (s / 60) ++ ascii ":" ++ twoDigits (s % 60)).take 5

def drawBar (fb : OledFb) (y : Int) (permille : UInt16) : OledFb :=
  let permille := min permille.toNat 1000
  let fb := oledFbRect fb oledBarX y oledBarW oledBarH
  let fill : Nat := oledBarInnerW * permille / 1000
  oledFbFillRect fb (oledBarX + 2) (y + 2) fill (oledBarH - 4) true

/-- The `"%s %u/%u"` line of the denied screen, in its 24 byte buffer. -/
def tryLine (r : UiRender) : List UInt8 :=
  (strTry ++ ascii " " ++ decimal r.attemptsUsed.toNat ++ ascii "/" ++
    decimal r.attemptsMax.toNat).take 23

def oledCompose (fb : OledFb) (r : UiRender) : OledFb :=
  let fb := oledFbClear fb
  match r.screen with
  | .idle => fb
  | .entry => drawBar fb ((oledH - oledBarH).tdiv 2) r.progressPermille
  | .granted => oledFbTextCentered fb ((oledH - 7 * 5 : Int).tdiv 2) strOk 5
  | .denied =>
    let fb := oledFbTextCentered fb 10 strDenied 1
    oledFbTextCentered fb 34 (tryLine r) 1
  | .notYet =>
    let fb := oledFbTextCentered fb 14 strNotYet1 2
    oledFbTextCentered fb 36 strNotYet2 2
  | .expired =>
    let fb := oledFbTextCentered fb 14 strExpired1 2
    oledFbTextCentered fb 36 strExpired2 2
  | .lockout =>
    let fb := oledFbTextCentered fb 2 strLocked 2
    let fb := oledFbTextCentered fb 22 (oledFmtMmss r.secondsRemaining) 2
    drawBar fb (oledH - oledBarH - 2) r.progressPermille
  | .noClock =>
    let fb := oledFbTextCentered fb 14 strNoClock1 1
    oledFbTextCentered fb 36 strNoClock2 1

theorem drawBar_above {row y : Int} (hy : row ≤ y) (fb : OledFb) (permille : UInt16) :
    SameAbove row fb (drawBar fb y permille) :=
  (oledFbRect_above hy fb _ _ _).trans (fillRect_above (by omega) _ _ _ _ _)

theorem twoLines_above {row y y' : Int} (hy : row ≤ y) (hy' : row ≤ y') (fb : OledFb)
    (text text' : List UInt8) (scale scale' : Int) :
    SameAbove row fb (oledFbTextCentered (oledFbTextCentered fb y text scale) y' text' scale') :=
  (oledFbTextCentered_above hy fb text scale).trans (oledFbTextCentered_above hy' _ text' scale')

/-- No screen draws in the two topmost rows of the panel. -/
theorem oledCompose_above (fb : OledFb) (r : UiRender) :
    SameAbove 2 (oledFbClear fb) (oledCompose fb r) := by
  unfold oledCompose
  split
  next => exact .refl _ _
  next => exact drawBar_above (by decide) _ _
  next => exact oledFbTextCentered_above (by decide) _ _ _
  next => exact twoLines_above (by decide) (by decide) _ _ _ _ _
  next => exact twoLines_above (by decide) (by decide) _ _ _ _ _
  next => exact twoLines_above (by decide) (by decide) _ _ _ _ _
  next =>
    exact (twoLines_above (by decide) (by decide) _ _ _ _ _).trans (drawBar_above (by decide) _ _)
  next => exact twoLines_above (by decide) (by decide) _ _ _ _ _

/-- A frame depends on the render alone, not on the frame before it. -/
theorem oledCompose_fresh (fb fb' : OledFb) (r : UiRender) :
    oledCompose fb r = oledCompose fb' r := rfl

/-- The bring-up frame is no screen: its top edge is lit where every screen is dark. -/
theorem border_ne_oledCompose (fb fb' : OledFb) (r : UiRender) :
    oledFbBorder (oledFbClear fb) ≠ oledCompose fb' r := by
  intro h
  have hlit : oledFbGet (oledFbBorder (oledFbClear fb)) 0 0 = true := by
    rw [oledFbGet_border, if_pos (by decide)]
  have hdark : oledFbGet (oledCompose fb' r) 0 0 = false := by
    rw [oledCompose_above fb' r 0 0 (by decide), oledFbGet_clear]
  rw [h, hdark] at hlit
  exact Bool.false_ne_true hlit

end GateAccess
