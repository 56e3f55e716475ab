import BabylonHealthDemo.AppRuns
import BabylonHealthDemo.RetrievalBlocks
import BabylonHealthDemo.ProviderIndicator
import BabylonHealthDemo.Sessions
import BabylonHealthDemo.AppRest
import BabylonHealthDemo.SVProgressHUDVisibility
import BabylonHealthDemo.Relaunch
import BabylonHealthDemo.ResponseTimes
