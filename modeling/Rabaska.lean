import Rabaska.Library.Fountain
import Rabaska.Library.Crc32
import Rabaska.Library.Machine
import Rabaska.CryptoProofs
import Rabaska.FormatProofs
import Rabaska.PayloadProofs
import Rabaska.CompressionProofs
import Rabaska.Authenticity
import Rabaska.Convergence
import Rabaska.LadderProofs
import Rabaska.AcquisitionProofs
import Rabaska.ContractProofs
import Rabaska.ForeignProofs
import Rabaska.ResumeProofs
import Rabaska.MixtureProofs
import Rabaska.KeyProofs
import Rabaska.ShellProofs
import Rabaska.CompleteProofs
import Rabaska.AccountingProofs
import Rabaska.StreamProofs
import Rabaska.DamageProofs
import Rabaska.LabelProofs
import Rabaska.RenderProofs
import Rabaska.TypedKeyProofs
import Rabaska.SessionIdProofs
import Rabaska.SkewProofs
import Rabaska.RouterProofs
import Rabaska.HarnessProofs
import Rabaska.InterceptionProofs
import Rabaska.ProgressProofs
import Rabaska.ReloadProofs
import Rabaska.CameraProofs
import Rabaska.IdentityProofs
import Rabaska.ScreenProofs
import Rabaska.FileProofs
import Rabaska.PlannerProofs
